import ClassCli.Proofs.Docstring.Layout
import ClassCli.Proofs.Entries

/-!
# Reading indented sections

The lines of a section are those between its title and the next line that stands no deeper. Among them an
entry is told from the lines that continue it by its depth, and from its description by the first colon.

* **`titled_layout`** — the section on parameters and the one on the result.
* **`args_layout`**, **`returns?_layout`** — what is read from a docstring that was laid out.
-/

namespace ClassCli.Docstring.Indented

open Text

variable {layout : Layout} {content : Content} {titles : List String}

/-! ## Titles -/

/-- All titles of sections. -/
def allTitles : List String := argTitles ++ returnTitles

theorem isTitle_eq_false {line text : List Char} (htitles : titles ⊆ allTitles)
    (htrim : trim line = text) (h : String.ofList text ∉ allTitles) : isTitle titles line = false := by
  rw [isTitle, List.any_eq_false]
  intro title ht heq
  refine h (htitles ?_)
  rw [beq_iff_eq, htrim] at heq
  rw [← heq, String.ofList_toList]
  exact ht

/-- No title has a space in it. -/
theorem not_mem_allTitles_of_space {text : List Char} (h : ' ' ∈ text) :
    String.ofList text ∉ allTitles := by
  have htitles : ∀ title ∈ allTitles, ' ' ∉ title.toList := by decide
  intro hmem
  have hspace := htitles _ hmem
  rw [String.toList_ofList] at hspace
  exact hspace h

theorem argTitles_subset : argTitles ⊆ allTitles := List.subset_append_left _ _

theorem returnTitles_subset : returnTitles ⊆ allTitles := List.subset_append_right _ _

/-- No line of a description that hangs behind a lead is a title. -/
theorem isTitle_hanging (htitles : titles ⊆ allTitles) (depth deeper : Nat) {lead : List Char}
    (hlead : Lead lead) (hspace : lead = [] ∨ ' ' ∈ lead) {lines : List (List Char)}
    (hlines : ∀ line ∈ lines, PlainLine line) :
    ∀ line ∈ hanging depth deeper lead lines, isTitle titles line = false := by
  cases lines with
  | nil => exact List.forall_mem_nil _
  | cons first more =>
    have hfirst := hlines first List.mem_cons_self
    rw [hanging, List.forall_mem_cons]
    constructor
    · refine isTitle_eq_false htitles (trim_indented depth (hlead.edged hfirst.edged)) ?_
      rcases hspace with rfl | hspace
      · exact hfirst.noTitle
      · exact not_mem_allTitles_of_space (List.mem_append_left _ hspace)
    · intro line hline
      obtain ⟨text, htext, rfl⟩ := List.mem_map.mp hline
      have hplain := hlines text (List.mem_cons_of_mem _ htext)
      exact isTitle_eq_false htitles (trim_indented _ hplain.edged) hplain.noTitle

/-! ## Sections -/

theorem titled_append {front : List (List Char)} (h : ∀ line ∈ front, isTitle titles line = false)
    (rest : List (List Char)) : titled titles (front ++ rest) = titled titles rest := by
  induction front with
  | nil => rfl
  | cons line others ih =>
    rw [List.cons_append, titled, h line List.mem_cons_self, if_neg Bool.false_ne_true]
    exact ih fun other ho => h other (List.mem_cons_of_mem _ ho)

/-- A section holds the lines up to the next one that stands no deeper than its title. -/
theorem titled_section {title : List Char} (htitle : isTitle titles title = true)
    (hdepth : indentation title = 0) {first : List Char} {others rest : List (List Char)}
    (hlines : ∀ line ∈ first :: others, blank line = false ∧ 0 < indentation line)
    (hrest : (rest.filter (!blank ·)).takeWhile (fun line => 0 < indentation line) = []) :
    titled titles (title :: (first :: others ++ rest)) = some (first :: others) := by
  have hfirst := hlines first List.mem_cons_self
  have hbody : (first :: others ++ rest).dropWhile blank = first :: others ++ rest := by
    rw [List.cons_append, List.dropWhile_cons_of_neg (by simp [hfirst.1])]
  have hflush : ((first :: others ++ rest).head?.map indentation == some 0) = false := by
    have hne : indentation first ≠ 0 := Nat.ne_of_gt hfirst.2
    simpa using hne
  have hkeep : (first :: others).filter (!blank ·) = first :: others :=
    List.filter_eq_self.mpr fun line hline => by simp [(hlines line hline).1]
  have hdeep : ∀ line ∈ first :: others, decide (0 < indentation line) = true :=
    fun line hline => decide_eq_true (hlines line hline).2
  -- the first line stands deeper than the title, so the section is not a flush one
  rw [titled, if_pos htitle]
  dsimp only
  rw [hdepth, hbody, hflush, if_neg Bool.false_ne_true, List.filter_append, hkeep,
    List.takeWhile_append_of_pos hdeep, hrest, List.append_nil]

/-- Hanging lines stand deeper than a title. -/
theorem deep_hanging (hl : layout.Proper) {lead : List Char} (hlead : Lead lead)
    {lines : List (List Char)} (hlines : ∀ line ∈ lines, PlainLine line) :
    ∀ line ∈ hanging layout.depth layout.deeper lead lines,
      blank line = false ∧ 0 < indentation line := by
  cases lines with
  | nil => exact List.forall_mem_nil _
  | cons first more =>
    have hfirst := hlead.edged (hlines first List.mem_cons_self).edged
    rw [hanging, List.forall_mem_cons]
    constructor
    · rw [indentation_indented _ hfirst]
      exact ⟨blank_indented _ hfirst, hl.depth_pos⟩
    · intro line hline
      obtain ⟨text, htext, rfl⟩ := List.mem_map.mp hline
      have hedged := (hlines text (List.mem_cons_of_mem _ htext)).edged
      rw [indentation_indented _ hedged]
      exact ⟨blank_indented _ hedged, Nat.lt_trans hl.depth_pos hl.depth_lt⟩

theorem isTitle_nil (htitles : titles ⊆ allTitles) : isTitle titles [] = false :=
  isTitle_eq_false htitles rfl (by decide)

/-- A section under another title is passed over. -/
theorem titled_part_other (htitles : titles ⊆ allTitles) {title : List Char}
    (htitle : isTitle titles title = false) {lines : List (List Char)}
    (hlines : ∀ line ∈ lines, isTitle titles line = false) (rest : List (List Char)) :
    titled titles (part [title] lines ++ rest) = titled titles rest := by
  refine titled_append ?_ rest
  intro line hline
  rcases mem_part hline with rfl | hline | hline
  · exact isTitle_nil htitles
  · rw [List.mem_singleton.mp hline]
    exact htitle
  · exact hlines line hline

/-- A section is found under its title, if it has any lines. -/
theorem titled_part (htitles : titles ⊆ allTitles) {title : List Char}
    (htitle : isTitle titles title = true) (hdepth : indentation title = 0)
    {lines rest : List (List Char)} (hlines : ∀ line ∈ lines, blank line = false ∧ 0 < indentation line)
    (hrest : (rest.filter (!blank ·)).takeWhile (fun line => 0 < indentation line) = []) :
    titled titles (part [title] lines ++ rest)
      = if lines.isEmpty then titled titles rest else some lines := by
  cases lines with
  | nil => rfl
  | cons first others =>
    have hnil : titled titles ([] :: ([title] ++ first :: others ++ rest))
        = titled titles ([title] ++ first :: others ++ rest) :=
      titled_append (List.forall_mem_singleton.mpr (isTitle_nil htitles)) _
    rw [part, List.cons_append, hnil]
    exact titled_section htitle hdepth hlines hrest

/-- Nothing of a part belongs to the section before it. -/
theorem takeWhile_part {title : List Char} (hblank : blank title = false) (hdepth : indentation title = 0)
    (lines : List (List Char)) :
    ((part [title] lines).filter (!blank ·)).takeWhile (fun line => 0 < indentation line) = [] := by
  cases lines with
  | nil => rfl
  | cons first others =>
    rw [part, List.filter_cons_of_neg (by decide), List.singleton_append,
      List.filter_cons_of_pos (by rw [hblank]; rfl), List.takeWhile_cons_of_neg]
    rw [hdepth]
    decide

/-! ## The sections of a docstring -/

section Titled

variable (hl : layout.Proper) (h : content.Plain)
include h

theorem isTitle_summary (htitles : titles ⊆ allTitles) : isTitle titles content.summary = false :=
  isTitle_eq_false htitles h.summary.trimmed h.summary.noTitle

theorem isTitle_entryLines (htitles : titles ⊆ allTitles) :
    ∀ line ∈ content.params.flatMap (entryLines layout), isTitle titles line = false := by
  intro line hline
  obtain ⟨param, hparam, hline⟩ := List.mem_flatMap.mp hline
  have hspace : ' ' ∈ param.name ++ ": ".toList := List.mem_append_right _ (by decide)
  have hplain := h.params param hparam
  exact isTitle_hanging htitles _ _ (lead_name hplain.named) (Or.inr hspace) hplain.lines line hline

include hl

theorem deep_entryLines : ∀ line ∈ content.params.flatMap (entryLines layout),
    blank line = false ∧ 0 < indentation line := by
  intro line hline
  obtain ⟨param, hparam, hline⟩ := List.mem_flatMap.mp hline
  have hplain := h.params param hparam
  exact deep_hanging hl (lead_name hplain.named) hplain.lines line hline

/-- **The section on parameters.** -/
theorem titled_args : titled argTitles (content.summary :: body layout content)
    = if (content.params.flatMap (entryLines layout)).isEmpty then none
      else some (content.params.flatMap (entryLines layout)) := by
  have hreturns := titled_part_other argTitles_subset (by decide : isTitle argTitles "Returns:".toList = false)
    (isTitle_hanging argTitles_subset layout.depth layout.deeper lead_nil (Or.inl rfl) h.plain_returns) []
  rw [List.append_nil] at hreturns
  rw [← List.singleton_append,
    titled_append (List.forall_mem_singleton.mpr (isTitle_summary h argTitles_subset)), body,
    titled_part argTitles_subset (by decide) (by decide) (deep_entryLines hl h)
      (takeWhile_part (by decide) (by decide) _), hreturns]
  rfl

/-- **The section on the result.** -/
theorem titled_returns : titled returnTitles (content.summary :: body layout content)
    = if content.returns.isEmpty then none
      else some (hanging layout.depth layout.deeper [] content.returns) := by
  have hdeep := deep_hanging hl lead_nil h.plain_returns
  have hnext : (([] : List (List Char)).filter (!blank ·)).takeWhile (fun line => 0 < indentation line)
      = [] := rfl
  have hreturns := titled_part returnTitles_subset
    (by decide : isTitle returnTitles "Returns:".toList = true) (by decide) hdeep hnext
  rw [List.append_nil] at hreturns
  rw [← List.singleton_append,
    titled_append (List.forall_mem_singleton.mpr (isTitle_summary h returnTitles_subset)), body,
    titled_part_other returnTitles_subset (by decide) (isTitle_entryLines h returnTitles_subset),
    hreturns]
  cases content.returns with
  | nil => rfl
  | cons first more => rfl

end Titled

/-! ## Entries -/

/-- No bracket, no change. -/
theorem withoutBrackets_eq {s : List Char} (h : '(' ∉ s) : withoutBrackets s = s := by
  induction s with
  | nil => rfl
  | cons c rest ih =>
    rw [List.mem_cons, not_or] at h
    have hc : (decide (c = '(') && rest.contains ')') = false := by
      rw [decide_eq_false (Ne.symm h.1), Bool.false_and]
    rw [withoutBrackets, hc, if_neg Bool.false_ne_true, ih h.2]

section Entries

variable {base deeper : Nat} {name : List Char} {args : Entries String}

/-- The line of an entry stores its description. -/
theorem takeLine_entry (hname : isAsciiName name = true) {text : List Char} (htext : Edged text)
    (current : Option String) :
    takeLine base (args, current) (indented base (name ++ ": ".toList ++ text))
      = (args.put (String.ofList name) (String.ofList text), some (String.ofList name)) := by
  have hedged : Edged (name ++ ": ".toList ++ text) := (lead_name hname).edged htext
  -- neither a name nor the spaces before it hold a colon or a bracket
  have hmark : ':' ∉ indented base name := by
    rw [indented, List.mem_append, not_or]
    exact ⟨fun hmem => absurd (List.eq_of_mem_replicate hmem) (by decide),
      not_mem_name hname (by decide)⟩
  have hbracket : '(' ∉ indented base name := by
    rw [indented, List.mem_append, not_or]
    exact ⟨fun hmem => absurd (List.eq_of_mem_replicate hmem) (by decide),
      not_mem_name hname (by decide)⟩
  have hsplit : splitOnce ':' (indented base (name ++ ": ".toList ++ text))
      = some (indented base name, indented 1 text) := by
    have h := splitOnce_append hmark (indented 1 text)
    rw [indented, List.append_assoc] at h
    rw [indented, List.append_assoc]
    exact h
  rw [takeLine.eq_def]
  dsimp only
  rw [indentation_indented base hedged, if_pos (Nat.le_refl base), hsplit]
  dsimp only
  rw [withoutBrackets_eq hbracket, trim_indented base (edged_name hname), trim_indented 1 htext]

/-- A deeper line continues the last entry. -/
theorem takeLine_more (hdeeper : base < deeper) {entry : String} (hnew : entry ∉ args.keys)
    {lines : List (List Char)} {line : List Char} (hne : lines ≠ [])
    (hlines : ∀ piece ∈ lines, Edged piece) (hline : Edged line) :
    takeLine base (args ++ [(entry, String.ofList (join [' '] lines))], some entry) (indented deeper line)
      = (args ++ [(entry, String.ofList (join [' '] (lines ++ [line])))], some entry) := by
  rw [takeLine, indentation_indented deeper hline, if_neg (Nat.not_le.mpr hdeeper)]
  dsimp only
  rw [Entries.get?_concat hnew, Option.getD_some, String.toList_ofList,
    joinWords_pair hne hlines hline (trim_indented deeper hline), Entries.put_concat hnew]

theorem foldl_takeLine_more (hdeeper : base < deeper) {entry : String} (hnew : entry ∉ args.keys)
    {lines more : List (List Char)} (hne : lines ≠ []) (hlines : ∀ piece ∈ lines ++ more, Edged piece) :
    (more.map (indented deeper)).foldl (takeLine base)
        (args ++ [(entry, String.ofList (join [' '] lines))], some entry)
      = (args ++ [(entry, String.ofList (join [' '] (lines ++ more)))], some entry) := by
  -- the entry stays the last one, and the lines that it holds grow by one in each step
  induction more generalizing lines with
  | nil => rw [List.append_nil, List.map_nil, List.foldl_nil]
  | cons line rest ih =>
    rw [List.append_cons] at hlines
    have hfront := (List.forall_mem_append.mp hlines).1
    have hstep := takeLine_more hdeeper hnew hne (List.forall_mem_append.mp hfront).1
      (hfront line List.mem_concat_self)
    rw [List.map_cons, List.foldl_cons, hstep,
      ih (List.append_ne_nil_of_right_ne_nil _ (List.cons_ne_nil _ _)) hlines, ← List.append_cons]

end Entries

/-- **The lines of one entry** store what is read about a parameter. -/
theorem foldl_entryLines (hl : layout.Proper) {param : Described} (h : param.Plain) {args : Entries String}
    (hnew : param.entry.1 ∉ args.keys) (current : Option String) :
    (entryLines layout param).foldl (takeLine layout.depth) (args, current)
      = (args ++ [param.entry], some param.entry.1) := by
  obtain ⟨first, more, heq⟩ := List.exists_cons_of_ne_nil h.described
  have hedged : ∀ line ∈ [first] ++ more, Edged line := by
    have hlines := h.lines
    rw [heq] at hlines
    exact fun line hline => (hlines line hline).edged
  have hentry : param.entry = (String.ofList param.name, String.ofList (join [' '] ([first] ++ more))) := by
    rw [Described.entry, heq]
    rfl
  rw [hentry] at hnew
  rw [hentry, entryLines, heq, hanging, List.foldl_cons,
    takeLine_entry h.named (hedged first List.mem_cons_self), Entries.put_of_not_mem hnew]
  exact foldl_takeLine_more hl.depth_lt hnew (List.cons_ne_nil _ _) hedged

/-- **The lines of all entries** store what is read about the parameters. -/
theorem foldl_params (hl : layout.Proper) {params : List Described}
    (h : ∀ param ∈ params, param.Plain) {args : Entries String}
    (hnew : (Entries.keys (args ++ params.map Described.entry)).Nodup) (current : Option String) :
    ((params.flatMap (entryLines layout)).foldl (takeLine layout.depth) (args, current)).1
      = args ++ params.map Described.entry := by
  induction params generalizing args current with
  | nil => exact (List.append_nil args).symm
  | cons param rest ih =>
    rw [List.forall_mem_cons] at h
    have hparam : param.entry.1 ∉ args.keys := by
      rw [Entries.keys, List.map_append] at hnew
      exact fun hmem => List.disjoint_of_nodup_append hnew hmem List.mem_cons_self
    rw [List.map_cons, List.append_cons] at hnew
    rw [List.flatMap_cons, List.foldl_append, foldl_entryLines hl h.1 hparam, ih h.2 hnew, List.map_cons,
      ← List.append_cons]

theorem head?_entries (layout : Layout) (h : content.Plain) (hne : content.params ≠ []) :
    (content.params.flatMap (entryLines layout)).head?.map indentation = some layout.depth := by
  obtain ⟨param, rest, hparams⟩ := List.exists_cons_of_ne_nil hne
  have hparam : param ∈ content.params := by
    rw [hparams]
    exact List.mem_cons_self
  have hplain := h.params param hparam
  obtain ⟨first, more, heq⟩ := List.exists_cons_of_ne_nil hplain.described
  have hedged : Edged (param.name ++ ": ".toList ++ first) := by
    refine (lead_name hplain.named).edged (hplain.lines first ?_).edged
    rw [heq]
    exact List.mem_cons_self
  rw [hparams, List.flatMap_cons, entryLines, heq, hanging, List.cons_append, List.head?_cons,
    Option.map_some, indentation_indented _ hedged]

/-! ## What is read -/

/-- Without a colon there is no type. -/
theorem afterType_eq_none {text : List Char} (h : ':' ∉ text) : afterType text = none := by
  have hcolon : ∀ {s description : List Char}, s <:+ text → trimStart s ≠ ':' :: description := by
    intro s description hs heq
    refine h (hs.subset ((List.dropWhile_suffix isBlank).subset ?_))
    rw [← trimStart, heq]
    exact List.mem_cons_self
  cases text with
  | nil => rfl
  | cons c rest =>
    have hword := (List.dropWhile_suffix (fun c => isWord c || c == '.') (l := rest)).trans
      (List.suffix_cons c rest)
    rw [afterType]
    split
    · rfl
    · dsimp only
      generalize rest.dropWhile (fun c => isWord c || c == '.') = others at hword
      split
      · next heq =>
        refine absurd heq (hcolon ?_)
        -- what stands behind the name, with or without arguments in square brackets
        split
        · next inner =>
          split
          · next after hafter =>
            have hsuffix : after <:+ inner := (List.suffix_cons _ after).trans
              (hafter ▸ List.dropWhile_suffix _)
            exact (hsuffix.trans (List.suffix_cons _ inner)).trans hword
          · exact hword
        · exact hword
      · rfl

section Reading

variable (hl : layout.Proper) (h : content.Plain)
include hl h

/-- **The parameters** that indented entries describe. -/
theorem args_layout : args (content.summary :: body layout content) = content.args := by
  by_cases hparams : content.params = []
  · rw [args, titled_args hl h, Content.args, hparams]
    rfl
  · have hbase := head?_entries layout h hparams
    have hne : (content.params.flatMap (entryLines layout)).isEmpty = false := by
      cases hlines : content.params.flatMap (entryLines layout) with
      | nil =>
        rw [hlines] at hbase
        cases hbase
      | cons first more => rfl
    rw [args, titled_args hl h, hne, if_neg Bool.false_ne_true]
    dsimp only
    rw [hbase]
    exact foldl_params hl h.params h.nodup_keys none

/-- **The result** that an indented section describes. -/
theorem returns?_layout : returns? (content.summary :: body layout content) = content.result? := by
  rw [returns?, titled_returns hl h, Content.result?]
  cases hreturns : content.returns with
  | nil => rfl
  | cons first more =>
    have hreturn : ∀ line ∈ first :: more, PlainLine line ∧ ':' ∉ line := hreturns ▸ h.returns
    have hlines : ∀ line ∈ first :: more, PlainLine line := fun line hline => (hreturn line hline).1
    have htype : afterType (join [' '] (first :: more)) = none :=
      afterType_eq_none (not_mem_join (by decide) fun line hline => (hreturn line hline).2)
    rw [List.isEmpty_cons, if_neg Bool.false_ne_true]
    dsimp only
    rw [joinWords_hanging hlines, htype, Option.getD_none, isEmpty_join hlines (List.cons_ne_nil _ _),
      if_neg Bool.false_ne_true]

end Reading

end ClassCli.Docstring.Indented
