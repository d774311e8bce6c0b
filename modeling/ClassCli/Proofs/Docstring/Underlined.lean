import Mathlib.Data.List.TakeWhile
import ClassCli.Proofs.Docstring.Layout
import ClassCli.Proofs.Entries

/-!
# Reading underlined sections

A line is a title by the rule below it. So no line is one that stands before text or before a blank line,
whatever it says: a parameter can have the name of a section.

* **`sectionBody_part`** — a section from its title on.
* **`gather_entryLines`** — an entry with its description.
* **`args_layout`**, **`returns?_layout`** — what is read from a docstring that was laid out.
-/

namespace ClassCli.Docstring.Underlined

open Text

variable {layout : Layout} {content : Content}

/-! ## Rules and titles -/

theorem isRule_eq_false {line text : List Char} (htrim : trim line = text) (h : text.any (· != '-') = true) :
    isRule line = false := by
  have hall : text.all (· == '-') = false := by
    obtain ⟨c, hc, hne⟩ := List.any_eq_true.mp h
    exact List.all_eq_false.mpr ⟨c, hc, by simpa using hne⟩
  rw [isRule, htrim, hall, Bool.and_false]

theorem isRule_indented {line : List Char} (h : PlainLine line) (depth : Nat) :
    isRule (indented depth line) = false :=
  isRule_eq_false (trim_indented depth h.edged) h.noRule

theorem isRule_name {name : List Char} (h : isAsciiName name = true) : isRule name = false := by
  refine isRule_eq_false (edged_name h).trim ?_
  obtain ⟨c, hc, -⟩ := (edged_name h).head
  have hmem : c ∈ name := List.mem_of_head? hc
  refine List.any_eq_true.mpr ⟨c, hmem, ?_⟩
  rw [bne_iff_ne]
  exact fun heq => not_mem_name h (by decide) (heq ▸ hmem)

/-- Lines of which the first one is no rule. -/
def Unruled (lines : List (List Char)) : Prop := ∀ line, lines.head? = some line → isRule line = false

theorem unruled_nil : Unruled [] := fun _ hline => nomatch hline

theorem unruled_cons {line : List Char} (h : isRule line = false) (rest : List (List Char)) :
    Unruled (line :: rest) := by
  intro other hother
  cases hother
  exact h

theorem unruled_part (heading lines : List (List Char)) : Unruled (part heading lines) := by
  cases lines with
  | nil => exact unruled_nil
  | cons first rest => exact unruled_cons (by decide) _

theorem Unruled.append {lines rest : List (List Char)} (h : Unruled lines) (h' : Unruled rest) :
    Unruled (lines ++ rest) := by
  cases lines with
  | nil => exact h'
  | cons first others => exact unruled_cons (h first rfl) _

/-- No line is a title without a rule below it. -/
theorem isTitle_eq_false {following : List (List Char)} (h : Unruled following) (line : List Char) :
    isTitle line following = false := by
  have hrule : (following.head?.map isRule).getD false = false := by
    cases hhead : following.head? with
    | none => rfl
    | some next => exact h next hhead
  rw [isTitle, hrule, Bool.and_false]

/-- The titles that are read. -/
def titles : List String := ["Parameters", "Returns"]

theorem isTitle_heading {title : String} (htitle : title ∈ titles) (rest : List (List Char)) :
    isTitle title.toList (List.replicate title.length '-' :: rest) = true := by
  have htitles : ∀ title ∈ titles, (!blank title.toList && !isRule title.toList
      && isRule (List.replicate title.length '-')) = true := by decide
  exact htitles title htitle

/-! ## Sections -/

theorem part_heading (title : String) (first : List Char) (others rest : List (List Char)) :
    part (heading title) (first :: others) ++ rest
      = [] :: title.toList :: List.replicate title.length '-' :: (first :: others ++ rest) := rfl

/-- Lines without rules are passed over. -/
theorem sectionBody_append (title : List Char) {front rest : List (List Char)}
    (hfront : ∀ line ∈ front, isRule line = false) (hrest : Unruled rest) :
    sectionBody title (front ++ rest) = sectionBody title rest := by
  induction front with
  | nil => rfl
  | cons line others ih =>
    rw [List.forall_mem_cons] at hfront
    -- what follows the line starts with another line of the front or with the rest
    have hothers : Unruled (others ++ rest) := by
      refine Unruled.append ?_ hrest
      exact fun next hnext => hfront.2 next (List.mem_of_head? hnext)
    rw [List.cons_append, sectionBody, isTitle_eq_false hothers, Bool.and_false,
      if_neg Bool.false_ne_true, ih hfront.2]

/-- A section is found under its title, if it has any lines. -/
theorem sectionBody_part {title : String} (htitle : title ∈ titles) (lines rest : List (List Char)) :
    sectionBody title.toList (part (heading title) lines ++ rest)
      = if lines.isEmpty then sectionBody title.toList rest else lines ++ rest := by
  have htrim : ∀ title ∈ titles, (trim title.toList == title.toList) = true ∧
      (trim [] == title.toList) = false := by decide
  obtain ⟨hself, hnil⟩ := htrim title htitle
  cases lines with
  | nil => rfl
  | cons first others =>
    rw [part_heading, sectionBody, hnil, Bool.false_and, if_neg Bool.false_ne_true, sectionBody, hself,
      isTitle_heading htitle]
    rfl

/-- A section under another title is passed over. -/
theorem sectionBody_part_other {title other : String} (htitle : title ∈ titles) (hother : other ∈ titles)
    (hne : other ≠ title) {lines rest : List (List Char)} (hlines : ∀ line ∈ lines, isRule line = false)
    (hrest : Unruled rest) :
    sectionBody title.toList (part (heading other) lines ++ rest) = sectionBody title.toList rest := by
  have htrim : ∀ title ∈ titles, ∀ other ∈ titles, other ≠ title → (trim [] == title.toList) = false
      ∧ (trim other.toList == title.toList) = false
      ∧ (trim (List.replicate other.length '-') == title.toList) = false := by decide
  obtain ⟨hnil, htext, hrule⟩ := htrim title htitle other hother hne
  cases lines with
  | nil => rfl
  | cons first others =>
    rw [part_heading, sectionBody, hnil, Bool.false_and, if_neg Bool.false_ne_true, sectionBody, htext,
      Bool.false_and, if_neg Bool.false_ne_true, sectionBody, hrule, Bool.false_and,
      if_neg Bool.false_ne_true, sectionBody_append title.toList hlines hrest]

/-! ## Entries -/

section Gather

variable {base : Option Nat} (found : List Entry) {rest : List (List Char)}

/-- The next title ends a section. -/
theorem gather_part {title : String} (htitle : title ∈ titles) (lines : List (List Char)) :
    gather base found (part (heading title) lines) = found := by
  cases lines with
  | nil => rfl
  | cons first others =>
    have hblank : ∀ title ∈ titles, blank title.toList = false := by decide
    rw [part, heading, List.cons_append, gather, if_pos (by decide), gather, hblank title htitle,
      if_neg Bool.false_ne_true, List.cons_append, isTitle_heading htitle, if_pos rfl]

variable (hrest : Unruled rest)
include hrest

theorem gather_head (hbase : base.getD 0 = 0) {head : List Char} (hhead : Edged head) :
    gather base found (head :: rest) = gather (some 0) (⟨head, []⟩ :: found) rest := by
  rw [gather, hhead.blank, if_neg Bool.false_ne_true, isTitle_eq_false hrest, if_neg Bool.false_ne_true,
    indentation_eq_zero hhead]
  dsimp only
  rw [hbase, if_neg (Nat.lt_irrefl 0), if_pos rfl, hhead.trim]

theorem gather_line {depth : Nat} (hdepth : 0 < depth) {line : List Char} (hline : Edged line)
    (entry : Entry) :
    gather (some 0) (entry :: found) (indented depth line :: rest)
      = gather (some 0) ({ entry with body := line :: entry.body } :: found) rest := by
  rw [gather, blank_indented depth hline, if_neg Bool.false_ne_true, isTitle_eq_false hrest,
    if_neg Bool.false_ne_true, indentation_indented depth hline]
  dsimp only
  rw [Option.getD_some, if_neg (Nat.not_lt_zero depth), if_neg (Nat.ne_of_gt hdepth),
    trim_indented depth hline]

/-- **The lines of one entry.** -/
theorem gather_entryLines (hl : layout.Proper) (hbase : base.getD 0 = 0) {head : List Char}
    (hhead : Edged head) {lines : List (List Char)} (hlines : ∀ line ∈ lines, PlainLine line) :
    gather base found (entryLines layout head lines ++ rest)
      = gather (some 0) (⟨head, lines.reverse⟩ :: found) rest := by
  have hunruled : ∀ more : List (List Char), (∀ line ∈ more, PlainLine line) →
      Unruled (more.map (indented layout.depth) ++ rest) := by
    intro more hmore
    refine Unruled.append ?_ hrest
    cases more with
    | nil => exact unruled_nil
    | cons first others => exact unruled_cons (isRule_indented (hmore first List.mem_cons_self) _) _
  have hbody : ∀ body : List (List Char), gather (some 0) (⟨head, body⟩ :: found)
      (lines.map (indented layout.depth) ++ rest)
        = gather (some 0) (⟨head, lines.reverse ++ body⟩ :: found) rest := by
    -- lines are kept last one first, so each one is put in front of those before it
    induction lines with
    | nil => exact fun body => rfl
    | cons line others ih =>
      intro body
      rw [List.forall_mem_cons] at hlines
      rw [List.map_cons, List.cons_append,
        gather_line found (hunruled others hlines.2) hl.depth_pos hlines.1.edged, ih hlines.2,
        List.reverse_cons, List.append_assoc, List.singleton_append]
  rw [entryLines, List.cons_append, gather_head found (hunruled lines hlines) hbase hhead, hbody [],
    List.append_nil]

end Gather

theorem unruled_params (layout : Layout) {params : List Described} (h : ∀ param ∈ params, param.Plain) :
    Unruled (params.flatMap fun param => entryLines layout param.name param.lines) := by
  cases params with
  | nil => exact unruled_nil
  | cons param others => exact unruled_cons (isRule_name (h param List.mem_cons_self).named) _

/-- **The lines of all entries** on parameters, up to the next title. -/
theorem gather_params (hl : layout.Proper) {title : String} (htitle : title ∈ titles)
    (lines : List (List Char)) {params : List Described} (h : ∀ param ∈ params, param.Plain) {base : Option Nat}
    (hbase : base.getD 0 = 0) (found : List Entry) :
    gather base found ((params.flatMap fun param => entryLines layout param.name param.lines)
        ++ part (heading title) lines)
      = (params.map fun param => ⟨param.name, param.lines.reverse⟩).reverse ++ found := by
  induction params generalizing base found with
  | nil => exact gather_part found htitle lines
  | cons param others ih =>
    rw [List.forall_mem_cons] at h
    have hrest := (unruled_params layout h.2).append (unruled_part (heading title) lines)
    rw [List.flatMap_cons, List.append_assoc,
      gather_entryLines found hrest hl hbase (edged_name h.1.named) h.1.lines, ih h.2 rfl,
      List.map_cons, List.reverse_cons, List.append_assoc, List.singleton_append]

/-! ## The sections of a docstring -/

section Sections

variable (h : content.Plain)
include h

theorem isRule_summary : isRule content.summary = false :=
  isRule_eq_false h.summary.trimmed h.summary.noRule

theorem isRule_params : ∀ line ∈ content.params.flatMap fun param => entryLines layout param.name param.lines,
    isRule line = false := by
  intro line hline
  obtain ⟨param, hparam, hline⟩ := List.mem_flatMap.mp hline
  rcases List.mem_cons.mp hline with rfl | hline
  · exact isRule_name (h.params param hparam).named
  · obtain ⟨text, htext, rfl⟩ := List.mem_map.mp hline
    exact isRule_indented ((h.params param hparam).lines text htext) _

variable (hl : layout.Proper)
include hl

theorem isRule_returns : ∀ line ∈ returnLines layout content.returns, isRule line = false := by
  cases hreturns : content.returns with
  | nil => exact List.forall_mem_nil _
  | cons first more =>
    have hlines := hreturns ▸ h.plain_returns
    change ∀ line ∈ entryLines layout layout.resultType (first :: more), isRule line = false
    rw [entryLines, List.forall_mem_cons]
    refine ⟨isRule_eq_false hl.type_trimmed hl.type_noRule, ?_⟩
    intro line hline
    obtain ⟨text, htext, rfl⟩ := List.mem_map.mp hline
    exact isRule_indented (hlines text htext) _

omit hl in
theorem sectionBody_layout (title : List Char) :
    sectionBody title (content.summary :: body layout content) = sectionBody title (body layout content) :=
  sectionBody_append title (List.forall_mem_singleton.mpr (isRule_summary h))
    ((unruled_part _ _).append (unruled_part _ _))

/-- **The entries on parameters.** -/
theorem entries_params : entries "Parameters" (content.summary :: body layout content)
    = content.params.map fun param => ⟨param.name, param.lines⟩ := by
  have hgather : gather none [] (sectionBody "Parameters".toList (body layout content))
      = (content.params.map fun param => ⟨param.name, param.lines.reverse⟩).reverse := by
    rw [body, sectionBody_part (by decide)]
    cases hparams : content.params with
    | nil =>
      have hother := sectionBody_part_other (by decide : "Parameters" ∈ titles)
        (by decide : "Returns" ∈ titles) (by decide) (isRule_returns h hl) unruled_nil
      rw [List.append_nil] at hother
      rw [List.flatMap_nil, List.isEmpty_nil, if_pos rfl, hother]
      rfl
    | cons param others =>
      have hplain := hparams ▸ h.params
      rw [← List.append_nil (List.reverse _)]
      exact gather_params hl (by decide) _ hplain rfl []
  rw [entries, sectionBody_layout h, hgather, List.reverse_reverse, List.map_map]
  refine List.map_congr_left fun param _ => ?_
  rw [Function.comp_apply, List.reverse_reverse]

/-- **The entry on the result.** -/
theorem entries_returns : entries "Returns" (content.summary :: body layout content)
    = if content.returns.isEmpty then [] else [⟨layout.resultType, content.returns⟩] := by
  have hsection : sectionBody "Returns".toList (body layout content) = returnLines layout content.returns := by
    have hpart := sectionBody_part (by decide : "Returns" ∈ titles) (returnLines layout content.returns) []
    rw [List.append_nil, List.append_nil] at hpart
    -- the section on parameters stands in front and is passed over
    rw [body, sectionBody_part_other (by decide) (by decide) (by decide) (isRule_params h)
      (unruled_part _ _), hpart]
    cases content.returns with
    | nil => rfl
    | cons first more => rfl
  rw [entries, sectionBody_layout h, hsection]
  cases hreturns : content.returns with
  | nil => rfl
  | cons first more =>
    have hlines := hreturns ▸ h.plain_returns
    have hgather : gather none [] (entryLines layout layout.resultType (first :: more) ++ [])
        = gather (some 0) [⟨layout.resultType, (first :: more).reverse⟩] [] :=
      gather_entryLines [] unruled_nil hl rfl hl.edged hlines
    rw [List.append_nil] at hgather
    change (gather none [] (entryLines layout layout.resultType (first :: more))).reverse.map _ = _
    rw [hgather, gather, List.reverse_singleton, List.map_singleton, List.reverse_reverse]
    rfl

end Sections

/-! ## What is read -/

section Reading

variable (h : content.Plain)
include h

/-- **The summary** above the sections. -/
theorem summary?_layout : summary? (content.summary :: body layout content) = some content.summary := by
  have hbody : Unruled (body layout content) := (unruled_part _ _).append (unruled_part _ _)
  rw [summary?, h.summary.edged.blank, isRule_summary h, isTitle_eq_false hbody, h.summary.trimmed]
  rfl

omit h in
theorem names_eq {name : List Char} (h : isAsciiName name = true) : names name = [name] := by
  have hcolon : name.takeWhile (· != ':') = name := by
    refine List.takeWhile_eq_self_iff.mpr fun c hc => ?_
    rw [bne_iff_ne]
    exact fun heq => not_mem_name h (by decide) (heq ▸ hc)
  have hstar : name.dropWhile (· == '*') = name := by
    obtain ⟨c, rest, rfl⟩ := List.exists_cons_of_ne_nil (name_ne_nil h)
    have hmem : '*' ∉ c :: rest := not_mem_name h (by decide)
    refine List.dropWhile_cons_of_neg fun heq => ?_
    exact hmem (beq_iff_eq.mp heq ▸ List.mem_cons_self)
  rw [names, hcolon, splitAt_of_not_mem (not_mem_name h (by decide)), List.map_singleton,
    (edged_name h).trim, hstar, List.filter_singleton, List.isEmpty_eq_false_iff.mpr (name_ne_nil h)]
  rfl

variable (hl : layout.Proper)
include hl

/-- **The parameters** above their descriptions. -/
theorem args_layout : args (content.summary :: body layout content) = content.args := by
  have hentry : ∀ param ∈ content.params,
      ((names param.name).map fun name => (String.ofList name, String.ofList (joinWords param.lines)))
        = [param.entry] := by
    intro param hparam
    have hplain := h.params param hparam
    rw [names_eq hplain.named, List.map_singleton, joinWords_plain hplain.lines]
    rfl
  rw [args, entries_params h hl, List.flatMap_map, List.flatMap_congr hentry, ← List.map_eq_flatMap]
  exact Entries.ofPairs_of_nodup h.nodup_keys

/-- **The result** below its type. -/
theorem returns?_layout : returns? (content.summary :: body layout content) = content.result? := by
  rw [returns?, entries_returns h hl, Content.result?]
  cases hreturns : content.returns with
  | nil => rfl
  | cons first more =>
    have hlines := hreturns ▸ h.plain_returns
    rw [List.isEmpty_cons, if_neg Bool.false_ne_true]
    dsimp only
    rw [List.isEmpty_cons, if_neg Bool.false_ne_true, joinWords_plain hlines,
      isEmpty_join hlines (List.cons_ne_nil _ _), if_neg Bool.false_ne_true]

end Reading

end ClassCli.Docstring.Underlined
