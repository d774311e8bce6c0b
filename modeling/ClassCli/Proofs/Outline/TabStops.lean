import Mathlib.Data.List.DropRight
import ClassCli.Proofs.Outline.Nesting

/-!
# Tab stops

Python cleans a docstring after its tabs have been expanded: each goes to the next column that is a multiple of
eight. Here a tab is eight spaces wherever it stands. All else about cleaning is the same, so that a text is cleaned
as Python cleans it exactly if its tabs make no difference: those behind the first visible character of a line stand
at tab stops, and the lines after the first hang as deep behind their common margin with the one kind of tab as with
the other.

* **`expandToStops`**, **`standardClean`** — what Python does.
* **`standardDedent_eq`** — a text with spaces only loses the same indentation.
* **`SameColumns`** — tabs that make no difference.
* **`cleandoc_eq_standard_iff`** — which texts are cleaned as Python cleans them.
-/

namespace ClassCli.Outline

open Text

/-! ## What Python does -/

/-- How far it is from a column to the next tab stop. -/
def toStop (column : Nat) : Nat := 8 - column % 8

/-- The text from a column on, with spaces up to the next stop for every tab. -/
def expandToStops : Nat → List Char → List Char
  | _, [] => []
  | column, c :: rest =>
    if c = '\t' then List.replicate (toStop column) ' ' ++ expandToStops (column + toStop column) rest
    else c :: expandToStops (if c = '\n' then 0 else column + 1) rest

/-- How many spaces open a line, unless there is nothing else on it. -/
def standardMargin (line : List Char) : Option Nat :=
  let content := line.dropWhile (· == ' ')
  if content.isEmpty then none else some (line.length - content.length)

/-- The first line without the spaces that open it, the others without those that open all of them. -/
def standardDedent : List (List Char) → List (List Char)
  | [] => []
  | first :: later =>
    first.dropWhile (· == ' ') ::
      match (later.filterMap standardMargin).min? with
      | some margin => later.map (·.drop margin)
      | none => later

/-- The text without the indentation of its lines and without empty lines at either end. -/
def standardClean (s : List Char) : List Char :=
  join ['\n'] (((standardDedent (splitAt '\n' s)).dropWhile List.isEmpty).rdropWhile List.isEmpty)

/-! ## Lines with spaces only -/

/-- White space is spaces only. -/
def Spaced (s : List Char) : Prop := ∀ c ∈ s, isBlank c = true → c = ' '

theorem isEmpty_trimStart (line : List Char) : (trimStart line).isEmpty = blank line := by
  rw [Bool.eq_iff_iff, List.isEmpty_iff, trimStart, List.dropWhile_eq_nil_iff, blank, List.all_eq_true]

section Spaced

variable {line : List Char} (h : Spaced line)
include h

theorem dropWhile_space : line.dropWhile (· == ' ') = trimStart line := by
  induction line with
  | nil => rfl
  | cons c rest ih =>
    obtain ⟨hc, hrest⟩ := List.forall_mem_cons.mp h
    by_cases hspace : c = ' '
    · subst hspace
      exact ih hrest
    · have hvisible : ¬isBlank c = true := fun hblank => hspace (hc hblank)
      rw [trimStart, List.dropWhile_cons_of_neg (by simpa using hspace), List.dropWhile_cons_of_neg hvisible]

theorem standardMargin_eq : standardMargin line = lineMargin line := by
  have hlength : (line.takeWhile isBlank).length + (trimStart line).length = line.length := by
    rw [trimStart, ← List.length_append, List.takeWhile_append_dropWhile]
  rw [standardMargin, dropWhile_space h, isEmpty_trimStart, lineMargin, ← hlength, Nat.add_sub_cancel_right]

end Spaced

/-- **Lines with spaces only** lose the same indentation. -/
theorem standardDedent_eq {lines : List (List Char)} (h : ∀ line ∈ lines, Spaced line) :
    standardDedent lines = dedent lines := by
  cases lines with
  | nil => rfl
  | cons first later =>
    obtain ⟨hfirst, hlater⟩ := List.forall_mem_cons.mp h
    have hmargins : later.filterMap standardMargin = later.filterMap lineMargin :=
      List.filterMap_congr fun line hline => standardMargin_eq (hlater line hline)
    rw [standardDedent, dedent, dropWhile_space hfirst, hmargins, commonMargin]
    cases (later.filterMap lineMargin).min? with
    | none => rfl
    | some margin => rfl

/-! ## Expanded texts -/

theorem expandToStops_tab (column : Nat) (rest : List Char) :
    expandToStops column ('\t' :: rest) =
      List.replicate (toStop column) ' ' ++ expandToStops (column + toStop column) rest := rfl

theorem expandToStops_cons {c : Char} (h : c ≠ '\t') (column : Nat) (rest : List Char) :
    expandToStops column (c :: rest) = c :: expandToStops (if c = '\n' then 0 else column + 1) rest := by
  rw [expandToStops, if_neg h]

theorem expandTabs_tab (rest : List Char) :
    expandTabs ('\t' :: rest) = List.replicate 8 ' ' ++ expandTabs rest := rfl

theorem expandTabs_cons_of_ne {c : Char} (h : c ≠ '\t') (rest : List Char) :
    expandTabs (c :: rest) = c :: expandTabs rest := by
  rw [expandTabs_cons, if_neg h, List.singleton_append]

/-- Nothing but spaces is added, and no tab is left. -/
theorem of_mem_expandToStops {c : Char} {column : Nat} {s : List Char} (h : c ∈ expandToStops column s) :
    c = ' ' ∨ c ∈ s ∧ c ≠ '\t' := by
  induction s generalizing column with
  | nil => cases h
  | cons d rest ih =>
    by_cases htab : d = '\t'
    · subst htab
      rw [expandToStops_tab, List.mem_append] at h
      rcases h with hspace | hrest
      · exact Or.inl (List.eq_of_mem_replicate hspace)
      · exact (ih hrest).imp_right (And.imp_left (List.mem_cons_of_mem _))
    · rw [expandToStops_cons htab, List.mem_cons] at h
      rcases h with rfl | hrest
      · exact Or.inr ⟨List.mem_cons_self, htab⟩
      · exact (ih hrest).imp_right (And.imp_left (List.mem_cons_of_mem _))

theorem of_mem_expandTabs {c : Char} {s : List Char} (h : c ∈ expandTabs s) : c = ' ' ∨ c ∈ s ∧ c ≠ '\t' := by
  obtain ⟨d, hd, hc⟩ := List.mem_flatMap.mp h
  by_cases htab : d = '\t'
  · rw [if_pos htab] at hc
    exact Or.inl (List.eq_of_mem_replicate hc)
  · rw [if_neg htab, List.mem_singleton] at hc
    exact Or.inr ⟨hc ▸ hd, hc ▸ htab⟩

/-- The text behind a part of a line goes on in the column that the part reaches. -/
theorem expandToStops_append {front : List Char} (h : '\n' ∉ front) (column : Nat) (back : List Char) :
    expandToStops column (front ++ back) =
      expandToStops column front ++ expandToStops (column + (expandToStops column front).length) back := by
  induction front generalizing column with
  | nil => rfl
  | cons c rest ih =>
    rw [List.mem_cons, not_or] at h
    rw [List.cons_append]
    by_cases htab : c = '\t'
    · subst htab
      rw [expandToStops_tab, expandToStops_tab, ih h.2, List.append_assoc, List.length_append,
        List.length_replicate, Nat.add_assoc]
    · rw [expandToStops_cons htab, expandToStops_cons htab, if_neg (Ne.symm h.1), ih h.2, List.cons_append,
        List.length_cons, Nat.add_assoc, Nat.add_comm 1]

/-- Tabs are expanded line by line; each line starts in the first column. -/
theorem splitAt_expandToStops {s first : List Char} {later : List (List Char)} (column : Nat)
    (h : splitAt '\n' s = first :: later) :
    splitAt '\n' (expandToStops column s) = expandToStops column first :: later.map (expandToStops 0) := by
  induction s generalizing first later column with
  | nil =>
    obtain ⟨rfl, rfl⟩ := List.cons.inj h
    rfl
  | cons c rest ih =>
    obtain ⟨piece, pieces, hrest⟩ := exists_splitAt '\n' rest
    by_cases hbreak : c = '\n'
    · subst hbreak
      rw [splitAt_mark, hrest] at h
      obtain ⟨rfl, rfl⟩ := List.cons.inj h
      rw [expandToStops_cons (by decide), if_pos rfl, splitAt_mark, ih 0 hrest]
      rfl
    · rw [splitAt_cons hbreak hrest] at h
      obtain ⟨rfl, rfl⟩ := List.cons.inj h
      by_cases htab : c = '\t'
      · subst htab
        exact splitAt_indented (toStop column) (ih _ hrest)
      · rw [expandToStops_cons htab, expandToStops_cons htab, if_neg hbreak]
        exact splitAt_cons hbreak (ih _ hrest)

/-! ## Tabs at stops -/

/-- Whether all tabs of a line stand at tab stops, if it starts in a column. -/
def atStops : Nat → List Char → Bool
  | _, [] => true
  | column, c :: rest =>
    if c = '\t' then column % 8 == 0 && atStops (column + 8) rest
    else atStops (if c = '\n' then 0 else column + 1) rest

/-- It is never further to the next stop than eight columns. -/
theorem length_expandToStops_le (column : Nat) (s : List Char) :
    (expandToStops column s).length ≤ (expandTabs s).length := by
  induction s generalizing column with
  | nil => exact Nat.le_refl 0
  | cons c rest ih =>
    by_cases htab : c = '\t'
    · subst htab
      have hrest := ih (column + toStop column)
      have hstop : toStop column ≤ 8 := Nat.sub_le 8 _
      rw [expandToStops_tab, expandTabs_tab, List.length_append, List.length_append, List.length_replicate,
        List.length_replicate]
      omega
    · rw [expandToStops_cons htab, expandTabs_cons_of_ne htab, List.length_cons, List.length_cons]
      exact Nat.succ_le_succ (ih _)

/-- **The two kinds of tab** are the same in a line exactly if its tabs stand at stops. -/
theorem expandTabs_eq_iff (column : Nat) (s : List Char) :
    expandTabs s = expandToStops column s ↔ atStops column s = true := by
  induction s generalizing column with
  | nil => exact iff_of_true rfl rfl
  | cons c rest ih =>
    rw [atStops]
    by_cases htab : c = '\t'
    · subst htab
      rw [if_pos rfl, Bool.and_eq_true, beq_iff_eq, expandToStops_tab, expandTabs_tab]
      by_cases hstop : column % 8 = 0
      · have height : toStop column = 8 := by rw [toStop, hstop]
        rw [height, List.append_cancel_left_eq, ih]
        exact (and_iff_right hstop).symm
      · -- fewer than eight spaces, and no more in the rest
        refine iff_of_false (fun heq => ?_) (fun hboth => hstop hboth.1)
        have hlength := congrArg List.length heq
        have hrest := length_expandToStops_le (column + toStop column) rest
        have hless : toStop column < 8 := by
          rw [toStop]
          omega
        rw [List.length_append, List.length_append, List.length_replicate, List.length_replicate] at hlength
        omega
    · rw [if_neg htab, expandToStops_cons htab, expandTabs_cons_of_ne htab, List.cons.injEq, ih]
      exact and_iff_right rfl

/-! ## Lines behind their indentation -/

section Hung

variable (depth : List Char → Nat) (content : List Char → List Char)

/-- A line with its content at a depth. -/
def hung (line : List Char) : List Char := indented (depth line) (content line)

/-- The depth of a line that holds anything. -/
def heldDepth (line : List Char) : Option Nat := if blank line then none else some (depth line)

/-- The least depth of the lines that hold anything; zero if no line does. -/
def leastDepth (lines : List (List Char)) : Nat := (lines.filterMap (heldDepth depth)).min?.getD 0

variable {content} (hstart : ∀ line, Unindented (content line))
  (hblank : ∀ line, (content line).isEmpty = blank line)
include hstart hblank

theorem lineMargin_hung (line : List Char) : lineMargin (hung depth content line) = heldDepth depth line := by
  have hcontent : lineMargin (content line) = if blank line then none else some 0 := by
    rw [lineMargin, blank_of_unindented (hstart line), hblank, takeWhile_of_unindented (hstart line)]
    rfl
  rw [hung, lineMargin_indented, hcontent, heldDepth]
  split
  · rfl
  · rfl

omit hstart in
/-- A margin that is no deeper than the line is taken off its depth. A blank line has no content to lose. -/
theorem drop_hung {line : List Char} {margin : Nat} (h : ∀ least ∈ heldDepth depth line, margin ≤ least) :
    (hung depth content line).drop margin = hung (fun line => depth line - margin) content line := by
  have hcontent : (content line).drop (margin - depth line) = content line := by
    cases hline : blank line with
    | true => rw [List.isEmpty_iff.mp ((hblank line).trans hline), List.drop_nil]
    | false =>
      rw [heldDepth, hline, if_neg Bool.false_ne_true] at h
      rw [Nat.sub_eq_zero_of_le (h _ rfl), List.drop_zero]
  rw [hung, indented, List.drop_append, List.drop_replicate, List.length_replicate, hcontent]
  rfl

/-- **Lines at their depths** lose the least depth of those after the first; the first loses all of its own. -/
theorem dedent_map_hung (first : List Char) (later : List (List Char)) :
    dedent ((first :: later).map (hung depth content)) =
      content first :: later.map (hung (fun line => depth line - leastDepth depth later) content) := by
  have hfirst : trimStart (hung depth content first) = content first := by
    rw [hung, trimStart_indented_of_unindented (hstart first)]
  have hmargin : commonMargin (later.map (hung depth content)) = (later.filterMap (heldDepth depth)).min? := by
    rw [commonMargin, List.filterMap_map]
    exact congrArg (fun margins => (List.filterMap margins later).min?)
      (funext (lineMargin_hung depth hstart hblank))
  rw [List.map_cons, dedent, hfirst, hmargin]
  cases hleast : (later.filterMap (heldDepth depth)).min? with
  | none =>
    have hzero : leastDepth depth later = 0 := by rw [leastDepth, hleast, Option.getD_none]
    rw [hzero]
    rfl
  | some margin =>
    have hsome : leastDepth depth later = margin := by rw [leastDepth, hleast, Option.getD_some]
    dsimp only
    rw [hsome, List.map_map]
    refine congrArg (content first :: ·) (List.map_congr_left fun line hline => ?_)
    refine drop_hung depth hblank fun least hheld => ?_
    exact (List.min?_eq_some_iff.mp hleast).2 least (List.mem_filterMap.mpr ⟨line, hline, hheld⟩)

/-- What holds nothing but white space is the same. -/
theorem map_blank_hung (first : List Char) (later : List (List Char)) :
    (content first :: later.map (hung depth content)).map blank = (first :: later).map blank := by
  have hcontent (line : List Char) : blank (content line) = blank line :=
    (blank_of_unindented (hstart line)).trans (hblank line)
  rw [List.map_cons, List.map_cons, List.map_map, hcontent]
  refine congrArg (blank first :: ·) (List.map_congr_left fun line _ => ?_)
  exact (blank_indented_eq (content line) (depth line)).trans (hcontent line)

end Hung

/-- Among lines that hold nothing the least depth is zero. -/
theorem leastDepth_of_blank (depth : List Char → Nat) {lines : List (List Char)}
    (h : ∀ line ∈ lines, blank line = true) : leastDepth depth lines = 0 := by
  have hnone : lines.filterMap (heldDepth depth) = [] :=
    List.filterMap_eq_nil_iff.mpr fun line hline => by rw [heldDepth, h line hline, if_pos rfl]
  rw [leastDepth, hnone]
  rfl

/-! ## Lines with tabs -/

/-- Where a line starts if a tab is eight columns wide. -/
def wideDepth (line : List Char) : Nat := (expandTabs (line.takeWhile isBlank)).length

/-- Where a line starts if a tab goes to the next stop. -/
def stopDepth (line : List Char) : Nat := (expandToStops 0 (line.takeWhile isBlank)).length

/-- What stands behind the indentation of a line, with eight spaces for a tab. -/
def wideContent (line : List Char) : List Char := expandTabs (trimStart line)

/-- What stands behind the indentation of a line, with spaces up to the next stop for a tab. -/
def stopContent (line : List Char) : List Char := expandToStops (stopDepth line) (trimStart line)

/-- White space is spaces, tabs and line feeds only. -/
def SimpleSpace (s : List Char) : Prop := ∀ c ∈ s, isBlank c = true → c = ' ' ∨ c = '\t' ∨ c = '\n'

/-- Each tab takes one column at least. -/
theorem expanded_eq_nil_iff (s : List Char) (column : Nat) : expandTabs s = [] ↔ expandToStops column s = [] := by
  cases s with
  | nil => exact Iff.rfl
  | cons c rest =>
    by_cases htab : c = '\t'
    · subst htab
      have hstop : toStop column ≠ 0 := by
        rw [toStop]
        omega
      rw [expandTabs_tab, expandToStops_tab, List.append_eq_nil_iff, List.append_eq_nil_iff,
        List.replicate_eq_nil_iff, List.replicate_eq_nil_iff]
      exact iff_of_false (fun hnil => absurd hnil.1 (by decide)) (fun hnil => hstop hnil.1)
    · rw [expandTabs_cons_of_ne htab, expandToStops_cons htab]
      exact iff_of_false (List.cons_ne_nil _ _) (List.cons_ne_nil _ _)

theorem wideDepth_eq_zero_iff (line : List Char) : wideDepth line = 0 ↔ stopDepth line = 0 := by
  rw [wideDepth, stopDepth, List.length_eq_zero_iff, List.length_eq_zero_iff, expanded_eq_nil_iff]

-- by the characters of the text, not by all characters
instance (s : List Char) : Decidable (SimpleSpace s) := List.decidableBAll _ s

theorem unindented_trimStart (line : List Char) : Unindented (trimStart line) := by
  intro c hc
  have hhead := List.head?_dropWhile_not isBlank line
  rw [← trimStart, Option.mem_def.mp hc] at hhead
  exact hhead

/-- A text that does not open with white space opens with the same character when its tabs are expanded. -/
theorem head?_expanded {s : List Char} (h : Unindented s) (column : Nat) :
    (expandTabs s).head? = s.head? ∧ (expandToStops column s).head? = s.head? := by
  cases s with
  | nil => exact ⟨rfl, rfl⟩
  | cons c rest =>
    have htab : c ≠ '\t' := by
      rintro rfl
      exact absurd (h _ rfl) (by decide)
    rw [expandTabs_cons_of_ne htab, expandToStops_cons htab]
    exact ⟨rfl, rfl⟩

theorem unindented_wideContent (line : List Char) : Unindented (wideContent line) := by
  rw [Unindented, wideContent, (head?_expanded (unindented_trimStart line) 0).1]
  exact unindented_trimStart line

theorem unindented_stopContent (line : List Char) : Unindented (stopContent line) := by
  rw [Unindented, stopContent, (head?_expanded (unindented_trimStart line) _).2]
  exact unindented_trimStart line

theorem isEmpty_of_head? {s t : List Char} (h : s.head? = t.head?) : s.isEmpty = t.isEmpty := by
  rw [Bool.eq_iff_iff, List.isEmpty_iff, List.isEmpty_iff, ← List.head?_eq_none_iff, h, List.head?_eq_none_iff]

theorem isEmpty_wideContent (line : List Char) : (wideContent line).isEmpty = blank line :=
  (isEmpty_of_head? (head?_expanded (unindented_trimStart line) 0).1).trans (isEmpty_trimStart line)

theorem isEmpty_stopContent (line : List Char) : (stopContent line).isEmpty = blank line :=
  (isEmpty_of_head? (head?_expanded (unindented_trimStart line) _).2).trans (isEmpty_trimStart line)

section Lines

variable {line : List Char} (h : SimpleSpace line) (hbreak : '\n' ∉ line)
include h hbreak

/-- The indentation of a line is spaces and tabs. -/
theorem of_mem_takeWhile {c : Char} (hc : c ∈ line.takeWhile isBlank) : c = ' ' ∨ c = '\t' := by
  have hmem := (List.takeWhile_sublist _).subset hc
  rcases h c hmem (List.all_eq_true.mp List.all_takeWhile c hc) with hspace | htab | hfeed
  · exact Or.inl hspace
  · exact Or.inr htab
  · exact absurd (hfeed ▸ hmem) hbreak

theorem expandTabs_eq_hung : expandTabs line = hung wideDepth wideContent line := by
  have hspaces : expandTabs (line.takeWhile isBlank) = List.replicate (wideDepth line) ' ' := by
    refine List.eq_replicate_iff.mpr ⟨rfl, fun c hc => ?_⟩
    rcases of_mem_expandTabs hc with hspace | ⟨hmem, htab⟩
    · exact hspace
    · exact (of_mem_takeWhile h hbreak hmem).resolve_right htab
  have hline : expandTabs (line.takeWhile isBlank ++ trimStart line) =
      expandTabs (line.takeWhile isBlank) ++ expandTabs (trimStart line) := List.flatMap_append
  rw [trimStart, List.takeWhile_append_dropWhile, hspaces] at hline
  exact hline

theorem expandToStops_eq_hung : expandToStops 0 line = hung stopDepth stopContent line := by
  have hspaces : expandToStops 0 (line.takeWhile isBlank) = List.replicate (stopDepth line) ' ' := by
    refine List.eq_replicate_iff.mpr ⟨rfl, fun c hc => ?_⟩
    rcases of_mem_expandToStops hc with hspace | ⟨hmem, htab⟩
    · exact hspace
    · exact (of_mem_takeWhile h hbreak hmem).resolve_right htab
  have hfeed : '\n' ∉ line.takeWhile isBlank := fun hmem => hbreak ((List.takeWhile_sublist _).subset hmem)
  have hline := expandToStops_append hfeed 0 (trimStart line)
  rw [trimStart, List.takeWhile_append_dropWhile, Nat.zero_add, hspaces, List.length_replicate] at hline
  exact hline

end Lines

/-! ## Empty lines at the ends -/

/-- What goes is empty lines. -/
theorem exists_dropEmptyEnds (lines : List (List Char)) :
    ∃ m n, lines = List.replicate m [] ++ (dropEmptyEnds lines ++ List.replicate n []) := by
  have hempty {front : List (List Char)} (h : ∀ line ∈ front, line.isEmpty = true) :
      front = List.replicate front.length [] :=
    List.eq_replicate_iff.mpr ⟨rfl, fun line hline => List.isEmpty_iff.mp (h line hline)⟩
  have hfront := hempty fun line hline => List.all_eq_true.mp (List.all_takeWhile (l := lines)) line hline
  have hback := hempty fun line (hline : line ∈ (lines.dropWhile List.isEmpty).rtakeWhile List.isEmpty) =>
    List.mem_rtakeWhile_imp hline
  refine ⟨(lines.takeWhile List.isEmpty).length,
    ((lines.dropWhile List.isEmpty).rtakeWhile List.isEmpty).length, ?_⟩
  rw [← hfront, ← hback]
  show lines = lines.takeWhile List.isEmpty ++ ((lines.dropWhile List.isEmpty).rdropWhile List.isEmpty ++ _)
  rw [List.rdropWhile_append_rtakeWhile, List.takeWhile_append_dropWhile]

/-- A line that holds anything stays. -/
theorem mem_dropEmptyEnds {lines : List (List Char)} {line : List Char} (hmem : line ∈ lines) (hne : line ≠ []) :
    line ∈ dropEmptyEnds lines := by
  obtain ⟨m, n, hparts⟩ := exists_dropEmptyEnds lines
  rw [hparts, List.mem_append, List.mem_append] at hmem
  rcases hmem with hfront | hkept | hback
  · exact absurd (List.eq_of_mem_replicate hfront) hne
  · exact hkept
  · exact absurd (List.eq_of_mem_replicate hback) hne

/-- **As many lines go at either end**, if the lines are alike in a way that sets one of those that stay apart from
the empty ones. -/
theorem eq_of_dropEmptyEnds {lines lines' : List (List Char)} {test : List Char → Bool} (htest : test [] = true)
    (halike : lines.map test = lines'.map test) (h : dropEmptyEnds lines = dropEmptyEnds lines')
    (hapart : ∃ line ∈ dropEmptyEnds lines, test line = false) : lines = lines' := by
  obtain ⟨m, n, hparts⟩ := exists_dropEmptyEnds lines
  obtain ⟨m', n', hparts'⟩ := exists_dropEmptyEnds lines'
  rw [← h] at hparts'
  have hlength := congrArg List.length halike
  -- the place of the first line that is set apart
  have hplace := congrArg (List.idxOf false) halike
  have hmem : false ∈ (dropEmptyEnds lines).map test := by
    obtain ⟨line, hline, hfalse⟩ := hapart
    exact List.mem_map.mpr ⟨line, hline, hfalse⟩
  have hidx (m n : Nat) : List.idxOf false
      ((List.replicate m [] ++ (dropEmptyEnds lines ++ List.replicate n [])).map test) =
        m + List.idxOf false ((dropEmptyEnds lines).map test) := by
    have hnot : false ∉ (List.replicate m ([] : List Char)).map test := by
      rw [List.map_replicate, htest]
      exact fun hin => Bool.false_ne_true (List.eq_of_mem_replicate hin)
    rw [List.map_append, List.idxOf_append_of_notMem hnot, List.length_map, List.length_replicate,
      List.map_append, List.idxOf_append_of_mem hmem]
  rw [hparts, hparts', hidx, hidx] at hplace
  rw [List.length_map, List.length_map, hparts, hparts'] at hlength
  simp only [List.length_append, List.length_replicate] at hlength
  have hm : m = m' := by omega
  have hn : n = n' := by omega
  rw [hparts, hparts', hm, hn]

/-- The same if it is the empty lines that are alike. -/
theorem eq_of_dropEmptyEnds_isEmpty {lines lines' : List (List Char)}
    (halike : lines.map List.isEmpty = lines'.map List.isEmpty)
    (h : dropEmptyEnds lines = dropEmptyEnds lines') : lines = lines' := by
  by_cases hapart : ∃ line ∈ dropEmptyEnds lines, line.isEmpty = false
  · exact eq_of_dropEmptyEnds rfl halike h hapart
  · have hempty {front : List (List Char)} (hfront : dropEmptyEnds front = dropEmptyEnds lines) :
        front = List.replicate front.length [] := by
      refine List.eq_replicate_iff.mpr ⟨rfl, fun line hline => ?_⟩
      by_contra hne
      exact hapart ⟨line, hfront ▸ mem_dropEmptyEnds hline hne, List.isEmpty_eq_false_iff.mpr hne⟩
    have hlength := congrArg List.length halike
    rw [List.length_map, List.length_map] at hlength
    rw [hempty rfl, hempty h.symm, hlength]

/-- Nothing stands at the end of what is left but a line that holds something. -/
theorem dropEmptyEnds_ne_singleton (lines : List (List Char)) : dropEmptyEnds lines ≠ [[]] := by
  intro heq
  have hkept : (lines.dropWhile List.isEmpty).rdropWhile List.isEmpty = [[]] := heq
  have hlast := List.rdropWhile_last_not List.isEmpty (lines.dropWhile List.isEmpty) (by rw [hkept]; decide)
  simp [hkept] at hlast

/-- Cleaned lines are found again in the text. -/
theorem join_dropEmptyEnds_inj {lines lines' : List (List Char)} (h : ∀ line ∈ lines, '\n' ∉ line)
    (h' : ∀ line ∈ lines', '\n' ∉ line)
    (heq : join ['\n'] (dropEmptyEnds lines) = join ['\n'] (dropEmptyEnds lines')) :
    dropEmptyEnds lines = dropEmptyEnds lines' := by
  have hsplit {lines : List (List Char)} (h : ∀ line ∈ lines, '\n' ∉ line) (hne : dropEmptyEnds lines ≠ []) :
      splitAt '\n' (join ['\n'] (dropEmptyEnds lines)) = dropEmptyEnds lines :=
    splitAt_join hne fun line hline => h line (mem_of_mem_dropEmptyEnds hline)
  by_cases hnil : dropEmptyEnds lines = []
  · by_cases hnil' : dropEmptyEnds lines' = []
    · rw [hnil, hnil']
    · have hlines := hsplit h' hnil'
      rw [← heq, hnil] at hlines
      exact absurd hlines.symm (dropEmptyEnds_ne_singleton lines')
  · by_cases hnil' : dropEmptyEnds lines' = []
    · have hlines := hsplit h hnil
      rw [heq, hnil'] at hlines
      exact absurd hlines.symm (dropEmptyEnds_ne_singleton lines)
    · rw [← hsplit h hnil, heq, hsplit h' hnil']

/-! ## Tabs that make no difference -/

/-- Tabs behind the indentation stand at stops, and the lines after the first hang as deep behind the least depth
among them, if a tab goes to the next stop, as they do if it is eight columns wide. -/
structure SameColumns (s : List Char) : Prop where
  inner : ∀ line ∈ splitAt '\n' s, atStops (stopDepth line) (trimStart line) = true
  hanging : ∀ line ∈ (splitAt '\n' s).tail,
    wideDepth line - leastDepth wideDepth (splitAt '\n' s).tail =
      stopDepth line - leastDepth stopDepth (splitAt '\n' s).tail

instance (s : List Char) : Decidable (SameColumns s) :=
  decidable_of_iff ((∀ line ∈ splitAt '\n' s, atStops (stopDepth line) (trimStart line) = true) ∧
      ∀ line ∈ (splitAt '\n' s).tail,
        wideDepth line - leastDepth wideDepth (splitAt '\n' s).tail =
          stopDepth line - leastDepth stopDepth (splitAt '\n' s).tail)
    ⟨fun ⟨h₁, h₂⟩ => ⟨h₁, h₂⟩, fun h => ⟨h.inner, h.hanging⟩⟩

section Columns

variable {s : List Char} (h : SimpleSpace s)
include h

theorem simpleSpace_of_mem_splitAt : ∀ line ∈ splitAt '\n' s, SimpleSpace line :=
  fun _ hline c hc => h c (mem_of_mem_splitAt hline hc)

/-- Expanded lines have spaces only. -/
theorem spaced_of_expanded {s' : List Char} (hs' : ∀ c ∈ s', c = ' ' ∨ c ∈ s ∧ c ≠ '\t') :
    ∀ line ∈ splitAt '\n' s', Spaced line := by
  intro line hline c hc hblank
  rcases hs' c (mem_of_mem_splitAt hline hc) with hspace | ⟨hmem, htab⟩
  · exact hspace
  · rcases h c hmem hblank with hspace | htab' | hfeed
    · exact hspace
    · exact absurd htab' htab
    · exact absurd (hfeed ▸ hc) (not_mem_of_mem_splitAt hline)

theorem standardClean_eq {s' : List Char} (hs' : ∀ c ∈ s', c = ' ' ∨ c ∈ s ∧ c ≠ '\t') :
    standardClean s' = join ['\n'] (dropEmptyEnds (dedent (splitAt '\n' s'))) := by
  rw [standardClean, standardDedent_eq (spaced_of_expanded h hs')]
  rfl

variable {first : List Char} {later : List (List Char)} (hlines : splitAt '\n' s = first :: later)
include hlines

theorem dedent_expandTabs :
    dedent (splitAt '\n' (expandTabs s)) = wideContent first ::
      later.map (hung (fun line => wideDepth line - leastDepth wideDepth later) wideContent) := by
  have hhung : (splitAt '\n' s).map expandTabs = (splitAt '\n' s).map (hung wideDepth wideContent) :=
    List.map_congr_left fun line hline =>
      expandTabs_eq_hung (simpleSpace_of_mem_splitAt h line hline) (not_mem_of_mem_splitAt hline)
  rw [splitAt_expandTabs, hhung, hlines, dedent_map_hung wideDepth unindented_wideContent isEmpty_wideContent]

theorem dedent_expandToStops :
    dedent (splitAt '\n' (expandToStops 0 s)) = stopContent first ::
      later.map (hung (fun line => stopDepth line - leastDepth stopDepth later) stopContent) := by
  have hhung : (splitAt '\n' s).map (expandToStops 0) = (splitAt '\n' s).map (hung stopDepth stopContent) :=
    List.map_congr_left fun line hline =>
      expandToStops_eq_hung (simpleSpace_of_mem_splitAt h line hline) (not_mem_of_mem_splitAt hline)
  rw [hlines, List.map_cons] at hhung
  rw [splitAt_expandToStops 0 hlines, hhung,
    dedent_map_hung stopDepth unindented_stopContent isEmpty_stopContent]

/-- **The lines without their indentation** are the same exactly if the tabs make no difference. -/
theorem dedent_eq_iff :
    dedent (splitAt '\n' (expandTabs s)) = dedent (splitAt '\n' (expandToStops 0 s)) ↔ SameColumns s := by
  have hcontent (line : List Char) :
      wideContent line = stopContent line ↔ atStops (stopDepth line) (trimStart line) = true :=
    expandTabs_eq_iff (stopDepth line) (trimStart line)
  have hsame : SameColumns s ↔
      (∀ line ∈ first :: later, atStops (stopDepth line) (trimStart line) = true) ∧
        ∀ line ∈ later, wideDepth line - leastDepth wideDepth later =
          stopDepth line - leastDepth stopDepth later := by
    constructor
    · rintro ⟨hinner, hhanging⟩
      rw [hlines] at hinner hhanging
      exact ⟨hinner, hhanging⟩
    · rintro ⟨hinner, hhanging⟩
      constructor
      · rwa [hlines]
      · rwa [hlines]
  rw [hsame, dedent_expandTabs h hlines, dedent_expandToStops h hlines, List.cons.injEq, hcontent,
    List.map_inj_left, List.forall_mem_cons, and_assoc, ← forall₂_and]
  refine and_congr_right fun _ => forall₂_congr fun line _ => ?_
  rw [hung, hung, indented_inj (unindented_wideContent line) (unindented_stopContent line), hcontent]
  exact and_comm

/-- **As many empty lines go at either end**, whichever way the tabs are expanded. -/
theorem dedent_eq_of_dropEmptyEnds
    (heq : dropEmptyEnds (dedent (splitAt '\n' (expandTabs s))) =
      dropEmptyEnds (dedent (splitAt '\n' (expandToStops 0 s)))) :
    dedent (splitAt '\n' (expandTabs s)) = dedent (splitAt '\n' (expandToStops 0 s)) := by
  rw [dedent_expandTabs h hlines, dedent_expandToStops h hlines] at heq ⊢
  have hwide := map_blank_hung (fun line => wideDepth line - leastDepth wideDepth later) unindented_wideContent
    isEmpty_wideContent first later
  have hstop := map_blank_hung (fun line => stopDepth line - leastDepth stopDepth later) unindented_stopContent
    isEmpty_stopContent first later
  by_cases hheld : ∃ line ∈ first :: later, blank line = false
  · -- a line that holds anything is kept, and there are as many lines before it
    refine eq_of_dropEmptyEnds rfl (hwide.trans hstop.symm) heq ?_
    obtain ⟨line, hline, hfalse⟩ := hheld
    have hmem : false ∈ (first :: later).map blank := List.mem_map.mpr ⟨line, hline, hfalse⟩
    rw [← hwide] at hmem
    obtain ⟨kept, hkept, hvisible⟩ := List.mem_map.mp hmem
    refine ⟨kept, mem_dropEmptyEnds hkept ?_, hvisible⟩
    rintro rfl
    cases hvisible
  · -- all lines are blank, and none loses anything
    have hblank : ∀ line ∈ first :: later, blank line = true := by simpa using hheld
    obtain ⟨hfirst, hlater⟩ := List.forall_mem_cons.mp hblank
    refine eq_of_dropEmptyEnds_isEmpty ?_ heq
    rw [List.map_cons, List.map_cons, isEmpty_wideContent, isEmpty_stopContent, List.map_map, List.map_map]
    refine congrArg (blank first :: ·) (List.map_congr_left fun line hline => ?_)
    have hcontent : wideContent line = [] ∧ stopContent line = [] := by
      rw [← List.isEmpty_iff, ← List.isEmpty_iff, isEmpty_wideContent, isEmpty_stopContent]
      exact ⟨hlater line hline, hlater line hline⟩
    rw [Function.comp_apply, Function.comp_apply, Bool.eq_iff_iff, List.isEmpty_iff, List.isEmpty_iff]
    simp only [hung, indented, leastDepth_of_blank _ hlater, hcontent, Nat.sub_zero, List.append_nil,
      List.replicate_eq_nil_iff]
    exact wideDepth_eq_zero_iff line

end Columns

/-! ## Cleaned texts -/

/-- **Which texts are cleaned as Python cleans them**: with eight spaces for a tab every text is; with tabs that go to
the next stop it is one whose tabs make no difference. White space is taken to be spaces, tabs and line feeds. -/
theorem cleandoc_eq_standard_iff (doc : String) (h : SimpleSpace doc.toList) :
    cleandoc doc = String.ofList (standardClean (expandTabs doc.toList)) ∧
      (cleandoc doc = String.ofList (standardClean (expandToStops 0 doc.toList)) ↔ SameColumns doc.toList) := by
  obtain ⟨first, later, hlines⟩ := exists_splitAt '\n' doc.toList
  have hwide : standardClean (expandTabs doc.toList) =
      join ['\n'] (dropEmptyEnds (dedent (splitAt '\n' (expandTabs doc.toList)))) :=
    standardClean_eq h fun c hc => of_mem_expandTabs hc
  have hstop : standardClean (expandToStops 0 doc.toList) =
      join ['\n'] (dropEmptyEnds (dedent (splitAt '\n' (expandToStops 0 doc.toList)))) :=
    standardClean_eq h fun c hc => of_mem_expandToStops hc
  have hclean : cleandoc doc = String.ofList (standardClean (expandTabs doc.toList)) := by
    rw [hwide]
    rfl
  refine ⟨hclean, ?_⟩
  rw [hclean, String.ofList_inj, ← dedent_eq_iff h hlines, hwide, hstop]
  constructor
  · intro heq
    exact dedent_eq_of_dropEmptyEnds h hlines
      (join_dropEmptyEnds_inj (fun _ => not_mem_of_mem_dedent) (fun _ => not_mem_of_mem_dedent) heq)
  · intro heq
    rw [heq]

/-- A docstring that is indented by tabs. -/
def tabbedDoc : String := "Cut it.\n\n\tArgs:\n\t\tsize: How long."

theorem cleandoc_eq_standard_tabbedDoc :
    SimpleSpace tabbedDoc.toList ∧ SameColumns tabbedDoc.toList ∧
      cleandoc tabbedDoc = String.ofList (standardClean (expandToStops 0 tabbedDoc.toList)) := by
  have hspace : SimpleSpace tabbedDoc.toList := by decide +kernel
  have hcolumns : SameColumns tabbedDoc.toList := by decide +kernel
  exact ⟨hspace, hcolumns, (cleandoc_eq_standard_iff tabbedDoc hspace).2.mpr hcolumns⟩

/-- A tab behind one character is eight spaces, and seven in Python. -/
theorem wide_tab_behind_character :
    SimpleSpace "a\tb".toList ∧ cleandoc "a\tb" = "a        b" ∧
      String.ofList (standardClean (expandToStops 0 "a\tb".toList)) = "a       b" := by
  decide +kernel

end ClassCli.Outline
