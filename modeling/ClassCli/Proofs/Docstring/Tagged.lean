import Mathlib.Data.List.TakeWhile
import ClassCli.Proofs.Docstring.Layout
import ClassCli.Proofs.Entries

/-!
# Reading tags

What follows a tag belongs to it up to a blank line or the next mark. A tag of another kind closes a
description like a blank line does.

* **`gather_described`**, **`gather_passed`** — the lines behind a tag, of the kind that is read or another.
* **`args_layout`**, **`returns?_layout`** — what is read from a docstring that was laid out.
-/

namespace ClassCli.Docstring.Tagged

open Text

variable {layout : Layout} {content : Content} {form : Form}

/-- No plain line starts with a mark. -/
theorem head?_ne_mark {line : List Char} (hform : form.Known) (h : PlainLine line) :
    line.head? ≠ some form.mark := by
  rcases hform with hmark | hmark
  · rw [hmark]
    exact h.untagged.1
  · rw [hmark]
    exact h.untagged.2

/-! ## Gathering -/

section Gather

variable {α : Type} {mark : Char} {tag? : List Char → Option (α × List Char)} {line : List Char}
  (opened : Bool) (found : List (α × List Char)) (rest : List (List Char))

theorem gather_entry {entry : α × List Char} (h : tag? (trim line) = some entry) :
    gather mark tag? opened found (line :: rest) = gather mark tag? true (entry :: found) rest := by
  rw [gather.eq_def]
  dsimp only
  rw [h]

/-- A blank line or another tag closes a description. -/
theorem gather_close (h : tag? (trim line) = none) (hclose : trim line = [] ∨ (trim line).head? = some mark) :
    gather mark tag? opened found (line :: rest) = gather mark tag? false found rest := by
  have htest : ((trim line).isEmpty || (trim line).head? == some mark) = true := by
    rcases hclose with hnil | hhead
    · rw [hnil]
      rfl
    · rw [hhead, beq_self_eq_true, Bool.or_true]
  rw [gather.eq_def]
  dsimp only
  rw [h]
  dsimp only
  rw [htest, if_pos rfl]

theorem not_closing {text : List Char} (htext : Edged text) (hhead : text.head? ≠ some mark) :
    (text.isEmpty || text.head? == some mark) = false := by
  rw [List.isEmpty_eq_false_iff.mpr htext.ne_nil, Bool.false_or]
  exact beq_eq_false_iff_ne.mpr hhead

section Plain

variable {text : List Char} (h : tag? text = none) (htext : Edged text) (hline : trim line = text)
  (hhead : text.head? ≠ some mark)
include h htext hline hhead

/-- A line that belongs to no tag is passed over. -/
theorem gather_outside :
    gather mark tag? false found (line :: rest) = gather mark tag? false found rest := by
  rw [gather.eq_def]
  dsimp only
  rw [hline, h]
  dsimp only
  rw [not_closing htext hhead, if_neg Bool.false_ne_true]

/-- A line behind a tag continues its description. -/
theorem gather_inside (tag : α) (description : List Char) :
    gather mark tag? true ((tag, description) :: found) (line :: rest)
      = gather mark tag? true ((tag, joinWords [description, text]) :: found) rest := by
  rw [gather.eq_def]
  dsimp only
  rw [hline, h]
  dsimp only
  rw [not_closing htext hhead, if_neg Bool.false_ne_true]

end Plain

end Gather

/-! ## Gathering from lines that were laid out -/

/-- Tags start with the mark. -/
def Marked {α : Type} (mark : Char) (tag? : List Char → Option (α × List Char)) : Prop :=
  ∀ line, line.head? ≠ some mark → tag? line = none

section Laid

variable {α : Type} {tag? : List Char → Option (α × List Char)} (hmarked : Marked form.mark tag?)
include hmarked

/-- A blank line in front of a part makes no difference. -/
theorem gather_part (found : List (α × List Char)) (lines : List (List Char)) :
    gather form.mark tag? false found (part [] lines) = gather form.mark tag? false found lines := by
  cases lines with
  | nil => rfl
  | cons first rest =>
    exact gather_close false found (first :: rest) (hmarked [] (Option.some_ne_none _).symm) (Or.inl rfl)

variable (hform : form.Known)
include hform

theorem gather_more {deeper : Nat} (tag : α) (found : List (α × List Char)) (rest : List (List Char))
    {lines more : List (List Char)} (hne : lines ≠ []) (hlines : ∀ line ∈ lines ++ more, PlainLine line) :
    gather form.mark tag? true ((tag, join [' '] lines) :: found) (more.map (indented deeper) ++ rest)
      = gather form.mark tag? true ((tag, join [' '] (lines ++ more)) :: found) rest := by
  -- the tag stays open, and its description grows by one line in each step
  induction more generalizing lines with
  | nil => rw [List.append_nil, List.map_nil, List.nil_append]
  | cons line others ih =>
    rw [List.append_cons] at hlines
    have hfront := (List.forall_mem_append.mp hlines).1
    have hline := hfront line List.mem_concat_self
    have hhead := head?_ne_mark hform hline
    have hjoin := joinWords_pair hne (fun piece hp => (hfront piece (List.mem_append_left _ hp)).edged)
      hline.edged hline.edged.trim
    rw [List.map_cons, List.cons_append, gather_inside found _ (hmarked line hhead) hline.edged
      (trim_indented deeper hline.edged) hhead, hjoin,
      ih (List.append_ne_nil_of_right_ne_nil _ (List.cons_ne_nil _ _)) hlines, ← List.append_cons]

/-- **A tag of the kind that is read** opens a description with the lines behind it. -/
theorem gather_described {deeper : Nat} {lead : List Char} (hlead : Lead lead) {tag : α}
    (htag : ∀ text, Edged text → tag? (lead ++ text) = some (tag, text)) {lines : List (List Char)}
    (hne : lines ≠ []) (hlines : ∀ line ∈ lines, PlainLine line) (opened : Bool)
    (found : List (α × List Char)) (rest : List (List Char)) :
    gather form.mark tag? opened found (hanging 0 deeper lead lines ++ rest)
      = gather form.mark tag? true ((tag, join [' '] lines) :: found) rest := by
  obtain ⟨first, more, rfl⟩ := List.exists_cons_of_ne_nil hne
  have hfirst := (hlines first List.mem_cons_self).edged
  have hline : tag? (trim (indented 0 (lead ++ first))) = some (tag, first) := by
    rw [trim_indented 0 (hlead.edged hfirst), htag first hfirst]
  rw [hanging, List.cons_append, gather_entry opened found _ hline]
  exact gather_more hmarked hform tag found rest (List.cons_ne_nil first []) hlines

/-- **A tag of another kind** is passed over with the lines behind it. -/
theorem gather_passed {deeper : Nat} {lead : List Char} (hlead : Lead (form.mark :: lead))
    (htag : ∀ text, tag? (form.mark :: lead ++ text) = none) {lines : List (List Char)}
    (hne : lines ≠ []) (hlines : ∀ line ∈ lines, PlainLine line) (opened : Bool)
    (found : List (α × List Char)) (rest : List (List Char)) :
    gather form.mark tag? opened found (hanging 0 deeper (form.mark :: lead) lines ++ rest)
      = gather form.mark tag? false found rest := by
  obtain ⟨first, more, rfl⟩ := List.exists_cons_of_ne_nil hne
  rw [List.forall_mem_cons] at hlines
  have htrim := trim_indented 0 (hlead.edged hlines.1.edged)
  have hmore : ∀ more : List (List Char), (∀ line ∈ more, PlainLine line) →
      gather form.mark tag? false found (more.map (indented deeper) ++ rest)
        = gather form.mark tag? false found rest := by
    -- after another tag nothing is open, so these lines find nothing to continue
    intro more hmore
    induction more with
    | nil => rfl
    | cons line others ih =>
      rw [List.forall_mem_cons] at hmore
      have hhead := head?_ne_mark hform hmore.1
      rw [List.map_cons, List.cons_append, gather_outside found _ (hmarked line hhead) hmore.1.edged
        (trim_indented deeper hmore.1.edged) hhead, ih hmore.2]
  have hnone : tag? (trim (indented 0 (form.mark :: lead ++ first))) = none := by
    rw [htrim]
    exact htag first
  have hhead : (trim (indented 0 (form.mark :: lead ++ first))).head? = some form.mark := by
    rw [htrim]
    rfl
  rw [hanging, List.cons_append, gather_close opened found _ hnone (Or.inr hhead), hmore more hlines.2]

end Laid

/-! ## Tags -/

theorem marked_param : Marked form.mark (param? form) := by
  intro line h
  rw [param?, afterStart_eq_none h]

/-- The lines that are read as a description of the result. -/
def resultTag? (form : Form) (line : List Char) : Option (Unit × List Char) :=
  (return? form line).map fun text => ((), text)

theorem marked_result : Marked form.mark (resultTag? form) := by
  intro line h
  rw [resultTag?, return?, afterStart_eq_none h]
  rfl

theorem lastWord_eq {s : List Char} (h : ∀ c ∈ s, isBlank c = false) : lastWord s = s := by
  have hall : ∀ c ∈ s.reverse, (!isBlank c) = true := by
    intro c hc
    rw [h c (List.mem_reverse.mp hc)]
    rfl
  rw [lastWord, List.takeWhile_eq_self_iff.mpr hall, List.reverse_reverse]

theorem starredName_eq {name : List Char} (h : isAsciiName name = true) :
    starredName name = some name := by
  have hstar : '*' ∉ name := not_mem_name h (by decide)
  have hword : name.all isWord = true := List.all_eq_true.mpr (isWord_of_mem_name h)
  have hne : name.isEmpty = false := List.isEmpty_eq_false_iff.mpr (name_ne_nil h)
  rw [starredName, hne, hword]
  · rfl
  · intro rest heq
    exact hstar (heq ▸ List.mem_cons_self)
  · intro rest heq
    exact hstar (heq ▸ List.mem_cons_self)

/-- **A line about a parameter** is read. -/
theorem param?_eq {name text : List Char} (hname : isAsciiName name = true) (htext : Edged text) :
    param? form (form.mark :: ("param ".toList ++ (name ++ ": ".toList)) ++ text) = some (name, text) := by
  have hstart : afterStart (form.mark :: "param".toList)
      (form.mark :: ("param ".toList ++ (name ++ ": ".toList)) ++ text)
        = some (' ' :: (name ++ ':' :: indented 1 text)) := by
    have h := afterStart_append (form.mark :: "param".toList) (' ' :: (name ++ ':' :: indented 1 text))
    rw [← h]
    simp only [indented, List.cons_append, List.append_assoc]
    rfl
  have hlast : (if form.typed then lastWord name else name) = name := by
    rw [lastWord_eq (isBlank_of_mem_name hname), ite_self]
  rw [param?, hstart]
  dsimp only
  rw [splitOnce_append (not_mem_name hname (by decide)), if_neg (by decide)]
  dsimp only
  rw [(edged_name hname).trim, hlast, starredName_eq hname, trim_indented 1 htext]
  rfl

theorem param?_return (text : List Char) :
    param? form (form.mark :: "return: ".toList ++ text) = none := by
  have hstart : afterStart (form.mark :: "param".toList) (form.mark :: "return: ".toList ++ text) = none := by
    rw [List.cons_append, afterStart, if_pos rfl]
    rfl
  rw [param?, hstart]

theorem afterColon_mark (description : List Char) :
    afterColon (':' :: description) = some (trim description) := by
  have hstart : trimStart (':' :: description) = ':' :: description :=
    List.dropWhile_cons_of_neg (by decide)
  rw [afterColon, hstart]
  rfl

/-- **A line about the result** is read. -/
theorem resultTag?_eq {text : List Char} (htext : Edged text) :
    resultTag? form (form.mark :: "return: ".toList ++ text) = some ((), text) := by
  have hstart : afterStart (form.mark :: "return".toList) (form.mark :: "return: ".toList ++ text)
      = some (':' :: indented 1 text) := by
    have h := afterStart_append (form.mark :: "return".toList) (':' :: indented 1 text)
    rw [← h]
    rfl
  rw [resultTag?, return?, hstart]
  change (afterColon (':' :: indented 1 text)).map _ = _
  rw [afterColon_mark, trim_indented 1 htext]
  rfl

theorem resultTag?_param (tag text : List Char) :
    resultTag? form (form.mark :: ("param ".toList ++ tag) ++ text) = none := by
  have hstart : afterStart (form.mark :: "return".toList) (form.mark :: ("param ".toList ++ tag) ++ text)
      = none := by
    rw [List.cons_append, afterStart, if_pos rfl]
    rfl
  rw [resultTag?, return?, hstart]
  rfl

/-! ## What is read -/

section Reading

variable (hform : form.Known) (h : content.Plain)
include hform h

theorem gather_summary {α : Type} {tag? : List Char → Option (α × List Char)}
    (hmarked : Marked form.mark tag?) (lines : List (List Char)) :
    gather form.mark tag? false [] (content.summary :: lines) = gather form.mark tag? false [] lines := by
  have hhead := head?_ne_mark hform h.summary
  exact gather_outside [] lines (hmarked _ hhead) h.summary.edged h.summary.trimmed hhead

omit h in
/-- The tags of parameters, where these are read. -/
theorem gather_params {params : List Described} (h : ∀ param ∈ params, param.Plain) (opened : Bool)
    (found : List (List Char × List Char)) (rest : List (List Char)) :
    gather form.mark (param? form) opened found (params.flatMap (paramLines form layout) ++ rest)
      = gather form.mark (param? form) (opened || !params.isEmpty)
          ((params.map fun param => (param.name, join [' '] param.lines)).reverse ++ found) rest := by
  induction params generalizing opened found with
  | nil =>
    rw [List.isEmpty_nil, Bool.not_true, Bool.or_false]
    rfl
  | cons param others ih =>
    rw [List.forall_mem_cons] at h
    have hlead := lead_param hform h.1.named
    rw [List.flatMap_cons, List.append_assoc, paramLines,
      gather_described marked_param hform hlead (fun text htext => param?_eq h.1.named htext)
        h.1.described h.1.lines,
      ih h.2, List.map_cons, List.reverse_cons, List.append_assoc,
      List.isEmpty_cons, Bool.not_false, Bool.or_true, Bool.true_or]
    rfl

omit h in
/-- The tags of parameters, where the result is read. -/
theorem gather_params_passed {params : List Described} (h : ∀ param ∈ params, param.Plain)
    (found : List (Unit × List Char)) (rest : List (List Char)) :
    gather form.mark (resultTag? form) false found (params.flatMap (paramLines form layout) ++ rest)
      = gather form.mark (resultTag? form) false found rest := by
  induction params with
  | nil => rfl
  | cons param others ih =>
    rw [List.forall_mem_cons] at h
    have hlead := lead_param hform h.1.named
    rw [List.flatMap_cons, List.append_assoc, paramLines,
      gather_passed marked_result hform hlead (resultTag?_param _) h.1.described h.1.lines, ih h.2]

/-- **The parameters** behind tags. -/
theorem args_layout : args form (content.summary :: body form layout content) = content.args := by
  have hreturns : ∀ opened found, gather form.mark (param? form) opened found
      (returnLines form layout content.returns) = found.reverse := by
    intro opened found
    by_cases hnone : content.returns = []
    · rw [hnone]
      rfl
    · rw [← List.append_nil (returnLines form layout content.returns), returnLines,
        gather_passed marked_param hform (lead_return hform) param?_return hnone h.plain_returns]
      rfl
  have hgather : gather form.mark (param? form) false [] (content.summary :: body form layout content)
      = content.params.map fun param => (param.name, join [' '] param.lines) := by
    rw [gather_summary hform h marked_param, body, gather_part marked_param,
      gather_params hform h.params, hreturns, List.append_nil, List.reverse_reverse]
  rw [args, hgather, List.map_map]
  exact Entries.ofPairs_of_nodup h.nodup_keys

/-- **The result** behind a tag. -/
theorem returns?_layout : returns? form (content.summary :: body form layout content) = content.result? := by
  have hgather : gather form.mark (resultTag? form) false [] (content.summary :: body form layout content)
      = if content.returns.isEmpty then [] else [((), join [' '] content.returns)] := by
    rw [gather_summary hform h marked_result, body, gather_part marked_result,
      gather_params_passed hform h.params]
    by_cases hnone : content.returns = []
    · rw [hnone]
      rfl
    · rw [← List.append_nil (returnLines form layout content.returns), returnLines,
        gather_described marked_result hform (lead_return hform) (fun text htext => resultTag?_eq htext)
          hnone h.plain_returns, List.isEmpty_eq_false_iff.mpr hnone]
      rfl
  have hresult : returns? form (content.summary :: body form layout content)
      = (gather form.mark (resultTag? form) false [] (content.summary :: body form layout content)).head?.map
          fun tagged => String.ofList tagged.2 := rfl
  rw [hresult, hgather, Content.result?]
  split
  · rfl
  · rfl

end Reading

end ClassCli.Docstring.Tagged
