import Mathlib.Data.List.Basic
import ClassCli.Proofs.Docstring.Tagged
import ClassCli.Proofs.Text.TidyLines

/-!
# Docstrings and the ends of lines

No convention sees white space at the ends of the lines of a docstring, or empty lines before and after them.

* **`Indented.tidied_args`**, **`Tagged.tidied_args`**, **`Underlined.tidied_args`** — the described parameters.
* **`tidied_firstLine?`**, **`Underlined.tidied_summary?`** — the summary.
* **`Convention.summaryLine?_eq`**, **`Convention.documentedArgs_eq`** — docstrings with the same lines when
  tidied.
-/

namespace ClassCli.Docstring

open Text

theorem blank_comp_trimEnd : blank ∘ trimEnd = blank := funext blank_trimEnd

theorem trim_comp_trimEnd : trim ∘ trimEnd = trim := funext trim_trimEnd

theorem tidied_firstLine? (mark : Option Char) : Tidied (Convention.firstLine? mark) where
  ends lines := by rw [Convention.firstLine?, List.map_map, trim_comp_trimEnd, Convention.firstLine?]
  before lines := rfl
  after lines := by
    rw [Convention.firstLine?, List.map_append, List.find?_append, Convention.firstLine?]
    exact Option.or_none

/-! ## Indented sections -/

namespace Indented

theorem isTitle_trimEnd (titles : List String) (line : List Char) :
    isTitle titles (trimEnd line) = isTitle titles line := by
  rw [isTitle, trim_trimEnd, isTitle]

/-- Titles that are not empty. -/
def Proper (titles : List String) : Prop := ∀ title ∈ titles, title.toList ≠ []

instance (titles : List String) : Decidable (Proper titles) := inferInstanceAs (Decidable (∀ title ∈ titles, _))

variable {titles : List String}

theorem Proper.not_blank (h : Proper titles) {line : List Char} (htitle : isTitle titles line = true) :
    blank line = false := by
  obtain ⟨title, hmem, hline⟩ := List.any_eq_true.mp htitle
  rw [← Bool.not_eq_true]
  intro hblank
  rw [trim_of_blank hblank, beq_iff_eq] at hline
  exact h title hmem hline

theorem Proper.isTitle_nil (h : Proper titles) : isTitle titles [] = false := by
  rw [← Bool.not_eq_true]
  intro htitle
  exact absurd (h.not_blank htitle) (by decide)

/-- The body of a section under its title. -/
def bodyUnder (depth : Nat) (rest : List (List Char)) : List (List Char) :=
  let body := rest.dropWhile blank
  if (body.head?.map indentation) == some depth then
    body.takeWhile fun line => !blank line && !looksLikeTitle (trim line)
  else (body.filter (!blank ·)).takeWhile fun line => depth < indentation line

theorem titled_cons (line : List Char) (rest : List (List Char)) :
    titled titles (line :: rest)
      = if isTitle titles line then some (bodyUnder (indentation line) rest) else titled titles rest := by
  rw [titled]
  split
  · rw [bodyUnder]
    dsimp only
    split
    · rfl
    · rfl
  · rfl

/-- Every line of a section holds something. -/
theorem not_blank_of_mem_bodyUnder {depth : Nat} {rest : List (List Char)} {line : List Char}
    (h : line ∈ bodyUnder depth rest) : blank line = false := by
  unfold bodyUnder at h
  dsimp only at h
  split at h
  · have htest := List.all_eq_true.mp List.all_takeWhile line h
    rw [Bool.and_eq_true, Bool.not_eq_true'] at htest
    exact htest.1
  · have hmem := (List.mem_filter.mp ((List.takeWhile_sublist _).subset h)).2
    rwa [Bool.not_eq_true'] at hmem

theorem not_blank_of_mem_titled {lines section_ : List (List Char)} (h : titled titles lines = some section_) :
    ∀ line ∈ section_, blank line = false := by
  induction lines with
  | nil => cases h
  | cons line rest ih =>
    rw [titled_cons] at h
    split at h
    · cases h
      exact fun line hline => not_blank_of_mem_bodyUnder hline
    · exact ih h

theorem head?_dropWhile_blank {rest : List (List Char)} {line : List Char}
    (h : (rest.dropWhile blank).head? = some line) : blank line = false := by
  have hfirst := List.head?_dropWhile_not blank rest
  rw [h] at hfirst
  simpa using hfirst

theorem bodyUnder_map (depth : Nat) (rest : List (List Char)) :
    bodyUnder depth (rest.map trimEnd) = (bodyUnder depth rest).map trimEnd := by
  have hbody : (rest.map trimEnd).dropWhile blank = (rest.dropWhile blank).map trimEnd := by
    rw [List.dropWhile_map, blank_comp_trimEnd]
  have hhead : ((rest.dropWhile blank).map trimEnd).head?.map indentation
      = (rest.dropWhile blank).head?.map indentation := by
    rw [List.head?_map, Option.map_map]
    refine Option.map_congr fun line hline => ?_
    exact indentation_trimEnd (head?_dropWhile_blank hline)
  unfold bodyUnder
  dsimp only
  rw [hbody, hhead]
  split
  · rw [List.takeWhile_map]
    congr 2
    funext line
    rw [Function.comp_apply, blank_trimEnd, trim_trimEnd]
  · have hfilter : (fun line => !blank line) ∘ trimEnd = fun line => !blank line := by
      funext line
      rw [Function.comp_apply, blank_trimEnd]
    rw [List.filter_map, hfilter, List.takeWhile_map]
    refine congrArg _ (takeWhile_congr fun line hline => ?_)
    have hblank := (List.mem_filter.mp hline).2
    rw [Bool.not_eq_true'] at hblank
    rw [Function.comp_apply, indentation_trimEnd hblank]

/-- White space at the ends of lines does not make a section. -/
theorem titled_map (h : Proper titles) (lines : List (List Char)) :
    titled titles (lines.map trimEnd) = (titled titles lines).map (List.map trimEnd) := by
  induction lines with
  | nil => rfl
  | cons line rest ih =>
    rw [List.map_cons, titled_cons, titled_cons, isTitle_trimEnd]
    split
    · rename_i htitle
      rw [indentation_trimEnd (h.not_blank htitle), bodyUnder_map, Option.map_some]
    · exact ih

theorem bodyUnder_concat (depth : Nat) (rest : List (List Char)) :
    bodyUnder depth (rest ++ [[]]) = bodyUnder depth rest := by
  by_cases hempty : rest.dropWhile blank = []
  · have hconcat : (rest ++ [[]]).dropWhile blank = [] := by
      rw [List.dropWhile_append, hempty]
      rfl
    rw [bodyUnder, hconcat, bodyUnder, hempty]
  · have hconcat : (rest ++ [[]]).dropWhile blank = rest.dropWhile blank ++ [[]] := by
      rw [List.dropWhile_append, if_neg (by simpa using hempty)]
    have hhead : (rest.dropWhile blank ++ [[]]).head? = (rest.dropWhile blank).head? :=
      List.head?_append_of_ne_nil _ hempty
    unfold bodyUnder
    dsimp only
    rw [hconcat, hhead]
    split
    · exact takeWhile_concat rfl _
    · rw [List.filter_append]
      exact congrArg _ (List.append_nil _)

theorem titled_concat (h : Proper titles) (lines : List (List Char)) :
    titled titles (lines ++ [[]]) = titled titles lines := by
  induction lines with
  | nil =>
    rw [List.nil_append, titled_cons, h.isTitle_nil]
    rfl
  | cons line rest ih => rw [List.cons_append, titled_cons, titled_cons, bodyUnder_concat, ih]

/-- White space at the end does not make an entry. -/
theorem takeLine_trimEnd {line : List Char} (h : blank line = false) (base : Nat)
    (sofar : Entries String × Option String) : takeLine base sofar (trimEnd line)
      = takeLine base sofar line := by
  have hcolon : isBlank ':' = false := by decide
  have hsplit := splitOnce_trimEnd line hcolon
  have hjoin (text : List Char) : joinWords [text, trimEnd line] = joinWords [text, line] := by
    unfold joinWords
    rw [List.map_cons, List.map_singleton, trim_trimEnd]
    rfl
  unfold takeLine
  dsimp only
  rw [indentation_trimEnd h]
  split_ifs
  · cases hline : splitOnce ':' line with
    | none =>
      rw [hline, Option.map_none, Option.map_eq_none_iff] at hsplit
      rw [hsplit]
      dsimp only
      simp only [hjoin]
    | some parts =>
      obtain ⟨head, description⟩ := parts
      rw [hline, Option.map_some, Option.map_eq_some_iff] at hsplit
      obtain ⟨⟨head', description'⟩, hline', hparts⟩ := hsplit
      obtain ⟨rfl, hdescription⟩ := Prod.mk.inj hparts
      rw [hline']
      dsimp only
      rw [hdescription]
  · dsimp only
    simp only [hjoin]

theorem proper_argTitles : Proper argTitles := by decide

theorem tidied_args : Tidied args where
  ends lines := by
    rw [args, titled_map proper_argTitles, args]
    cases hsection : titled argTitles lines with
    | none => rfl
    | some section_ =>
      have hblank := not_blank_of_mem_titled hsection
      have hbase : (section_.map trimEnd).head?.map indentation = section_.head?.map indentation := by
        rw [List.head?_map, Option.map_map]
        exact Option.map_congr fun line hline => indentation_trimEnd (hblank line (List.mem_of_head? hline))
      rw [Option.map_some]
      dsimp only
      rw [hbase, List.foldl_map]
      refine congrArg _ (List.foldl_ext _ _ _ fun sofar line hline => ?_)
      exact takeLine_trimEnd (hblank line hline) _ _
  before lines := by
    rw [args, titled_cons, proper_argTitles.isTitle_nil, args]
    rfl
  after lines := by rw [args, titled_concat proper_argTitles, args]

end Indented

/-! ## Tags -/

namespace Tagged

variable {α : Type} {mark : Char} {tag? : List Char → Option (α × List Char)}

theorem gather_map (mark : Char) (tag? : List Char → Option (α × List Char)) (lines : List (List Char)) :
    ∀ open_ found, gather mark tag? open_ found (lines.map trimEnd) = gather mark tag? open_ found lines := by
  induction lines with
  | nil => exact fun _ _ => rfl
  | cons line rest ih =>
    intro open_ found
    rw [List.map_cons]
    unfold gather
    simp only [trim_trimEnd, ih]

theorem gather_concat (h : tag? [] = none) (lines : List (List Char)) :
    ∀ open_ found, gather mark tag? open_ found (lines ++ [[]]) = gather mark tag? open_ found lines := by
  induction lines with
  | nil => exact fun open_ found => gather_close open_ found [] h (Or.inl rfl)
  | cons line rest ih =>
    intro open_ found
    rw [List.cons_append]
    unfold gather
    simp only [ih]

theorem tidied_args (form : Form) : Tidied (args form) where
  ends lines := by rw [args, gather_map, args]
  before lines := by
    rw [args, gather_close false [] lines rfl (Or.inl rfl), args]
  after lines := by rw [args, gather_concat rfl, args]

end Tagged

/-! ## Underlined titles -/

namespace Underlined

theorem isRule_trimEnd (line : List Char) : isRule (trimEnd line) = isRule line := by
  rw [isRule, trim_trimEnd, isRule]

theorem isTitle_map (line : List Char) (rest : List (List Char)) :
    isTitle (trimEnd line) (rest.map trimEnd) = isTitle line rest := by
  rw [isTitle, blank_trimEnd, isRule_trimEnd, List.head?_map, Option.map_map, isTitle]
  congr 3
  exact funext isRule_trimEnd

theorem isTitle_concat (line : List Char) (rest : List (List Char)) :
    isTitle line (rest ++ [[]]) = isTitle line rest := by
  cases rest with
  | nil => rfl
  | cons next others => rfl

theorem tidied_summary? : Tidied summary? where
  ends lines := by
    induction lines with
    | nil => rfl
    | cons line rest ih =>
      rw [List.map_cons, summary?, blank_trimEnd, isRule_trimEnd, isTitle_map, trim_trimEnd, ih, summary?]
  before lines := rfl
  after lines := by
    induction lines with
    | nil => rfl
    | cons line rest ih => rw [List.cons_append, summary?, isTitle_concat, ih, summary?]

theorem gather_map (lines : List (List Char)) :
    ∀ base found, gather base found (lines.map trimEnd) = gather base found lines := by
  induction lines with
  | nil => exact fun _ _ => rfl
  | cons line rest ih =>
    intro base found
    rw [List.map_cons, gather, gather, blank_trimEnd, isTitle_map, trim_trimEnd]
    cases hblank : blank line with
    | true => exact ih base found
    | false =>
      rw [indentation_trimEnd hblank]
      simp only [ih]

theorem gather_concat (lines : List (List Char)) :
    ∀ base found, gather base found (lines ++ [[]]) = gather base found lines := by
  induction lines with
  | nil => exact fun _ _ => rfl
  | cons line rest ih =>
    intro base found
    rw [List.cons_append, gather, gather, isTitle_concat]
    simp only [ih]

variable {title : List Char}

theorem sectionBody_nil_cons (lines : List (List Char)) :
    sectionBody title ([] :: lines) = sectionBody title lines := by
  have htitle : isTitle [] lines = false := rfl
  rw [sectionBody, htitle, Bool.and_false, if_neg Bool.false_ne_true]

theorem sectionBody_map (lines : List (List Char)) :
    sectionBody title (lines.map trimEnd) = (sectionBody title lines).map trimEnd := by
  induction lines with
  | nil => rfl
  | cons line rest ih =>
    rw [List.map_cons, sectionBody, trim_trimEnd, isTitle_map, sectionBody, ih, ← List.map_drop]
    split
    · rfl
    · rfl

/-- An empty line behind a section adds nothing to its entries. -/
theorem gather_sectionBody_concat (lines : List (List Char)) :
    gather none [] (sectionBody title (lines ++ [[]])) = gather none [] (sectionBody title lines) := by
  induction lines with
  | nil => rw [List.nil_append, sectionBody_nil_cons]
  | cons line rest ih =>
    rw [List.cons_append, sectionBody, isTitle_concat, sectionBody]
    split
    · cases rest with
      | nil => rfl
      | cons rule others => exact gather_concat others none []
    · exact ih

theorem tidied_entries (title : String) : Tidied (entries title) where
  ends lines := by rw [entries, sectionBody_map, gather_map, entries]
  before lines := by rw [entries, sectionBody_nil_cons, entries]
  after lines := by rw [entries, gather_sectionBody_concat, entries]

theorem tidied_args : Tidied args where
  ends lines := by rw [args, (tidied_entries "Parameters").ends, args]
  before lines := by rw [args, (tidied_entries "Parameters").before, args]
  after lines := by rw [args, (tidied_entries "Parameters").after, args]

end Underlined

/-! ## Conventions -/

namespace Convention

variable {doc doc' : String} (h : tidyLines (lines doc'.toList) = tidyLines (lines doc.toList))
include h

/-- **Docstrings with the same lines when tidied** have the same summary. -/
theorem summaryLine?_eq (convention : Convention) :
    convention.summaryLine? doc' = convention.summaryLine? doc := by
  unfold summaryLine?
  cases convention with
  | google | epytext | rest => exact congrArg (Option.map String.ofList) ((tidied_firstLine? _).eq_of_tidyLines h)
  | numpydoc => exact congrArg (Option.map String.ofList) (Underlined.tidied_summary?.eq_of_tidyLines h)

/-- **Docstrings with the same lines when tidied** describe the same parameters. -/
theorem documentedArgs_eq (convention : Convention) :
    convention.documentedArgs doc' = convention.documentedArgs doc := by
  unfold documentedArgs
  cases convention with
  | google => exact Indented.tidied_args.eq_of_tidyLines h
  | epytext | rest => exact (Tagged.tidied_args _).eq_of_tidyLines h
  | numpydoc => exact Underlined.tidied_args.eq_of_tidyLines h

end Convention

end ClassCli.Docstring
