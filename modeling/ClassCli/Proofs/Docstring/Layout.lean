import Mathlib.Data.List.Nodup
import ClassCli.Docstring.Convention
import ClassCli.Proofs.Text.Letters

/-!
# Docstrings that are laid out

A docstring says what a function does, what its parameters are and what it returns. Here this is laid out
in each of the conventions, with any widths of indentation. Lines that continue an indented entry stand
deeper than the line that opens it, and lines that continue a tag stand anywhere.

* **`Content`**, **`Content.Plain`** — what is said, in lines that no convention takes for its own marks.
* **`Convention.layout`**, **`Convention.document`** — the lines and the text of a docstring.
* **`lines_document`** — the lines of the text are those that were laid out.
-/

namespace ClassCli.Docstring

open Text

/-! ## Content -/

/-- A parameter with the lines that describe it. -/
structure Described where
  name : List Char
  lines : List (List Char)
  deriving DecidableEq, Repr, Inhabited

/-- What a docstring says. -/
structure Content where
  summary : List Char
  params : List Described
  /-- The lines about the result; there are none if nothing is said about it. -/
  returns : List (List Char)
  deriving DecidableEq, Repr, Inhabited

/-- A line that opens no tag and is neither a rule nor a title. -/
structure PlainLine (line : List Char) : Prop where
  ne_nil : line ≠ []
  trimmed : trim line = line
  unbroken : '\n' ∉ line
  untagged : line.head? ≠ some '@' ∧ line.head? ≠ some ':'
  noRule : line.any (· != '-') = true
  noTitle : String.ofList line ∉ Indented.argTitles ++ Indented.returnTitles

instance (line : List Char) : Decidable (PlainLine line) :=
  decidable_of_iff (line ≠ [] ∧ trim line = line ∧ '\n' ∉ line
      ∧ (line.head? ≠ some '@' ∧ line.head? ≠ some ':') ∧ line.any (· != '-') = true
      ∧ String.ofList line ∉ Indented.argTitles ++ Indented.returnTitles)
    ⟨fun ⟨h₁, h₂, h₃, h₄, h₅, h₆⟩ => ⟨h₁, h₂, h₃, h₄, h₅, h₆⟩,
      fun ⟨h₁, h₂, h₃, h₄, h₅, h₆⟩ => ⟨h₁, h₂, h₃, h₄, h₅, h₆⟩⟩

/-- A parameter with an ASCII name that plain lines describe. -/
structure Described.Plain (param : Described) : Prop where
  named : isAsciiName param.name = true
  described : param.lines ≠ []
  lines : ∀ line ∈ param.lines, PlainLine line

instance (param : Described) : Decidable param.Plain :=
  decidable_of_iff (isAsciiName param.name = true ∧ param.lines ≠ [] ∧ ∀ line ∈ param.lines, PlainLine line)
    ⟨fun ⟨h₁, h₂, h₃⟩ => ⟨h₁, h₂, h₃⟩, fun ⟨h₁, h₂, h₃⟩ => ⟨h₁, h₂, h₃⟩⟩

/-- Content in plain lines, about parameters of different names. -/
structure Content.Plain (content : Content) : Prop where
  summary : PlainLine content.summary
  distinct : (content.params.map (·.name)).Nodup
  params : ∀ param ∈ content.params, param.Plain
  returns : ∀ line ∈ content.returns, PlainLine line ∧ ':' ∉ line

/-- What is read about a parameter: its lines in one. -/
def Described.entry (param : Described) : String × String :=
  (String.ofList param.name, String.ofList (join [' '] param.lines))

/-- What is read about the parameters. -/
def Content.args (content : Content) : Entries String := content.params.map Described.entry

/-- What is read about the result. -/
def Content.result? (content : Content) : Option String :=
  if content.returns.isEmpty then none else some (String.ofList (join [' '] content.returns))

theorem Content.Plain.plain_returns {content : Content} (h : content.Plain) :
    ∀ line ∈ content.returns, PlainLine line := fun line hline => (h.returns line hline).1

theorem Content.Plain.nodup_keys {content : Content} (h : content.Plain) : content.args.keys.Nodup := by
  have hkeys : content.args.keys = (content.params.map (·.name)).map String.ofList := by
    rw [Content.args, Entries.keys, List.map_map, List.map_map]
    rfl
  rw [hkeys]
  exact List.Nodup.map (fun _ _ => String.ofList_injective) h.distinct

/-! ## Layouts -/

/-- How content is laid out. -/
structure Layout where
  /-- The number of spaces before what stands in a section. -/
  depth : Nat
  /-- The number of spaces before the lines that continue an indented entry. -/
  deeper : Nat
  /-- The number of spaces before the lines that continue a tag. -/
  behind : Nat
  /-- The type of the result, where it has a line of its own. -/
  resultType : List Char
  deriving DecidableEq, Repr, Inhabited

/-- A layout that tells sections, entries and descriptions apart. -/
structure Layout.Proper (layout : Layout) : Prop where
  depth_pos : 0 < layout.depth
  depth_lt : layout.depth < layout.deeper
  type_ne_nil : layout.resultType ≠ []
  type_trimmed : trim layout.resultType = layout.resultType
  type_unbroken : '\n' ∉ layout.resultType
  type_noRule : layout.resultType.any (· != '-') = true

/-- Lines of which the first one stands behind a lead and the others stand deeper. -/
def hanging (depth deeper : Nat) (lead : List Char) : List (List Char) → List (List Char)
  | [] => []
  | first :: more => indented depth (lead ++ first) :: more.map (indented deeper)

/-- A part of a docstring: a blank line, a heading and lines. There is none without lines. -/
def part (heading : List (List Char)) : List (List Char) → List (List Char)
  | [] => []
  | first :: rest => [] :: (heading ++ first :: rest)

namespace Indented

/-- A parameter as an entry: a name, a colon and a description. -/
def entryLines (layout : Layout) (param : Described) : List (List Char) :=
  hanging layout.depth layout.deeper (param.name ++ ": ".toList) param.lines

/-- The lines behind the summary. -/
def body (layout : Layout) (content : Content) : List (List Char) :=
  part ["Args:".toList] (content.params.flatMap (entryLines layout))
    ++ part ["Returns:".toList] (hanging layout.depth layout.deeper [] content.returns)

end Indented

namespace Tagged

/-- A parameter behind a tag. -/
def paramLines (form : Form) (layout : Layout) (param : Described) : List (List Char) :=
  hanging 0 layout.behind (form.mark :: ("param ".toList ++ (param.name ++ ": ".toList))) param.lines

/-- The result behind a tag. -/
def returnLines (form : Form) (layout : Layout) (returns : List (List Char)) : List (List Char) :=
  hanging 0 layout.behind (form.mark :: "return: ".toList) returns

/-- The lines behind the summary. -/
def body (form : Form) (layout : Layout) (content : Content) : List (List Char) :=
  part [] (content.params.flatMap (paramLines form layout) ++ returnLines form layout content.returns)

end Tagged

namespace Underlined

/-- A title above a rule of its length. -/
def heading (title : String) : List (List Char) := [title.toList, List.replicate title.length '-']

/-- An entry above its description. -/
def entryLines (layout : Layout) (head : List Char) (lines : List (List Char)) : List (List Char) :=
  head :: lines.map (indented layout.depth)

/-- The result below its type. -/
def returnLines (layout : Layout) : List (List Char) → List (List Char)
  | [] => []
  | lines => entryLines layout layout.resultType lines

/-- The lines behind the summary. -/
def body (layout : Layout) (content : Content) : List (List Char) :=
  part (heading "Parameters") (content.params.flatMap fun param => entryLines layout param.name param.lines)
    ++ part (heading "Returns") (returnLines layout content.returns)

end Underlined

/-- The lines behind the summary in a convention. -/
def Convention.body (layout : Layout) (content : Content) : Convention → List (List Char)
  | .google => Indented.body layout content
  | .epytext => Tagged.body Tagged.epytext layout content
  | .rest => Tagged.body Tagged.rest layout content
  | .numpydoc => Underlined.body layout content

/-- The lines of a docstring in a convention. -/
def Convention.layout (convention : Convention) (layout : Layout) (content : Content) :
    List (List Char) :=
  content.summary :: convention.body layout content

/-- The text of a docstring in a convention. -/
def Convention.document (convention : Convention) (layout : Layout) (content : Content) : String :=
  String.ofList (join ['\n'] (convention.layout layout content))

/-! ## Lines that are laid out -/

theorem PlainLine.edged {line : List Char} (h : PlainLine line) : Edged line :=
  edged_of_trim h.ne_nil h.trimmed

/-- A line of text behind spaces. -/
def Written (line : List Char) : Prop :=
  ∃ depth text, line = indented depth text ∧ Edged text ∧ '\n' ∉ text

theorem written_of_edged {text : List Char} (h : Edged text) (hbreak : '\n' ∉ text) : Written text :=
  ⟨0, text, rfl, h, hbreak⟩

theorem PlainLine.written {line : List Char} (h : PlainLine line) : Written line :=
  written_of_edged h.edged h.unbroken

theorem Written.ne_nil {line : List Char} (h : Written line) : line ≠ [] := by
  obtain ⟨depth, text, rfl, htext, -⟩ := h
  rw [indented]
  exact List.append_ne_nil_of_right_ne_nil _ htext.ne_nil

theorem Written.unbroken {line : List Char} (h : Written line) : '\n' ∉ line := by
  obtain ⟨depth, text, rfl, -, hbreak⟩ := h
  rw [indented, List.mem_append, not_or]
  refine ⟨fun hmem => ?_, hbreak⟩
  exact absurd (List.eq_of_mem_replicate hmem) (by decide)

theorem Written.getLast?_ne {line : List Char} (h : Written line) : line.getLast? ≠ some '\r' := by
  obtain ⟨depth, text, rfl, htext, -⟩ := h
  obtain ⟨c, hc, hblank⟩ := htext.last
  rw [indented, List.getLast?_append, hc]
  rintro hreturn
  cases hreturn
  exact absurd hblank (by decide)

/-- What can stand before the first line of a description. -/
structure Lead (lead : List Char) : Prop where
  unbroken : '\n' ∉ lead
  head : lead = [] ∨ ∃ c, lead.head? = some c ∧ isBlank c = false

theorem Lead.edged {lead text : List Char} (h : Lead lead) (ht : Edged text) : Edged (lead ++ text) := by
  obtain ⟨d, hd, hlast⟩ := ht.last
  refine ⟨?_, d, ?_, hlast⟩
  · rcases h.head with rfl | ⟨c, hc, hblank⟩
    · exact ht.head
    · refine ⟨c, ?_, hblank⟩
      rw [List.head?_append, hc]
      rfl
  · rw [List.getLast?_append, hd]
    rfl

theorem written_hanging {depth deeper : Nat} {lead : List Char} {lines : List (List Char)}
    (hlead : Lead lead) (hlines : ∀ line ∈ lines, PlainLine line) :
    ∀ line ∈ hanging depth deeper lead lines, Written line := by
  cases lines with
  | nil => exact List.forall_mem_nil _
  | cons first more =>
    have hfirst := hlines first List.mem_cons_self
    rw [hanging, List.forall_mem_cons]
    constructor
    · refine ⟨depth, lead ++ first, rfl, hlead.edged hfirst.edged, ?_⟩
      rw [List.mem_append, not_or]
      exact ⟨hlead.unbroken, hfirst.unbroken⟩
    · intro line hline
      obtain ⟨text, htext, rfl⟩ := List.mem_map.mp hline
      have hplain := hlines text (List.mem_cons_of_mem _ htext)
      exact ⟨deeper, text, rfl, hplain.edged, hplain.unbroken⟩

section Joined

variable {lines : List (List Char)} (h : ∀ line ∈ lines, PlainLine line)
include h

theorem map_trim : lines.map trim = lines :=
  (List.map_congr_left fun line hline => (h line hline).trimmed).trans (List.map_id' lines)

theorem map_trim_hanging (depth deeper : Nat) : (hanging depth deeper [] lines).map trim = lines := by
  cases lines with
  | nil => rfl
  | cons first more =>
    have htrim : ∀ line ∈ more, trim (indented deeper line) = trim line := by
      intro line hline
      have hplain := h line (List.mem_cons_of_mem _ hline)
      rw [trim_indented deeper hplain.edged, hplain.trimmed]
    have hfirst := h first List.mem_cons_self
    rw [hanging, List.map_cons, List.nil_append, trim_indented depth hfirst.edged, List.map_map]
    refine congrArg _ ((List.map_congr_left htrim).trans ?_)
    exact map_trim fun line hline => h line (List.mem_cons_of_mem _ hline)

theorem joinWords_plain : joinWords lines = join [' '] lines :=
  joinWords_of_map_trim (map_trim h) fun line hline => (h line hline).edged

theorem joinWords_hanging (depth deeper : Nat) :
    joinWords (hanging depth deeper [] lines) = join [' '] lines :=
  joinWords_of_map_trim (map_trim_hanging h depth deeper) fun line hline => (h line hline).edged

theorem isEmpty_join (hne : lines ≠ []) : (join [' '] lines).isEmpty = false :=
  List.isEmpty_eq_false_iff.mpr (edged_join hne fun line hline => (h line hline).edged).ne_nil

end Joined

theorem mem_part {heading lines : List (List Char)} {line : List Char} (h : line ∈ part heading lines) :
    line = [] ∨ line ∈ heading ∨ line ∈ lines := by
  cases lines with
  | nil => cases h
  | cons first rest =>
    rw [part, List.mem_cons, List.mem_append] at h
    exact h

theorem getLast?_part (heading lines : List (List Char)) :
    (part heading lines).getLast? = lines.getLast? := by
  cases lines with
  | nil => rfl
  | cons first rest =>
    rw [part, ← List.cons_append, List.getLast?_append,
      List.getLast?_eq_some_getLast (List.cons_ne_nil _ _)]
    rfl

/-- Lines that can stand behind a summary: blank ones and lines of text, the last one of text. -/
structure Laid (lines : List (List Char)) : Prop where
  line : ∀ line ∈ lines, line = [] ∨ Written line
  last : ∀ line, lines.getLast? = some line → Written line

theorem laid_part {heading lines : List (List Char)} (hheading : ∀ line ∈ heading, Written line)
    (hlines : ∀ line ∈ lines, Written line) : Laid (part heading lines) where
  line := by
    intro line hline
    exact (mem_part hline).imp_right fun h => h.elim (hheading line) (hlines line)
  last := by
    intro line hline
    rw [getLast?_part] at hline
    exact hlines line (List.mem_of_getLast? hline)

theorem Laid.append {lines others : List (List Char)} (h : Laid lines) (h' : Laid others) :
    Laid (lines ++ others) where
  line := List.forall_mem_append.mpr ⟨h.line, h'.line⟩
  last := by
    intro line hline
    rw [List.getLast?_append, Option.or_eq_some_iff] at hline
    rcases hline with hline | ⟨-, hline⟩
    · exact h'.last line hline
    · exact h.last line hline

/-! ## The lines of each convention -/

variable {layout : Layout} {content : Content}

theorem lead_nil : Lead [] := ⟨List.not_mem_nil, Or.inl rfl⟩

theorem lead_name {name : List Char} (h : isAsciiName name = true) : Lead (name ++ ": ".toList) where
  unbroken := by
    rw [List.mem_append, not_or]
    exact ⟨not_mem_name h (by decide), by decide⟩
  head := by
    obtain ⟨c, hc, hblank⟩ := (edged_name h).head
    refine Or.inr ⟨c, ?_, hblank⟩
    rw [List.head?_append, hc]
    rfl

theorem Indented.laid_body (h : content.Plain) : Laid (Indented.body layout content) := by
  have hargs : Written "Args:".toList :=
    written_of_edged (edged_of_trim (by decide) (by decide)) (by decide)
  have hreturns : Written "Returns:".toList :=
    written_of_edged (edged_of_trim (by decide) (by decide)) (by decide)
  refine (laid_part (List.forall_mem_singleton.mpr hargs) ?_).append
    (laid_part (List.forall_mem_singleton.mpr hreturns) ?_)
  · intro line hline
    obtain ⟨param, hparam, hline⟩ := List.mem_flatMap.mp hline
    have hplain := h.params param hparam
    exact written_hanging (lead_name hplain.named) hplain.lines line hline
  · exact written_hanging lead_nil h.plain_returns

/-- The forms of tags that plain lines keep clear of. -/
def Tagged.Form.Known (form : Tagged.Form) : Prop := form.mark = '@' ∨ form.mark = ':'

theorem Tagged.lead_tag {form : Tagged.Form} (hform : form.Known) {tag : List Char} (h : '\n' ∉ tag) :
    Lead (form.mark :: tag) where
  unbroken := by
    rw [List.mem_cons, not_or]
    refine ⟨?_, h⟩
    rcases hform with hmark | hmark
    · rw [hmark]
      decide
    · rw [hmark]
      decide
  head := by
    refine Or.inr ⟨form.mark, rfl, ?_⟩
    rcases hform with hmark | hmark
    · rw [hmark]
      decide
    · rw [hmark]
      decide

theorem Tagged.lead_param {form : Tagged.Form} (hform : form.Known) {name : List Char}
    (hname : isAsciiName name = true) : Lead (form.mark :: ("param ".toList ++ (name ++ ": ".toList))) := by
  refine Tagged.lead_tag hform ?_
  rw [List.mem_append, not_or]
  exact ⟨by decide, (lead_name hname).unbroken⟩

theorem Tagged.lead_return {form : Tagged.Form} (hform : form.Known) :
    Lead (form.mark :: "return: ".toList) := Tagged.lead_tag hform (by decide)

theorem Tagged.laid_body {form : Tagged.Form} (hform : form.Known) (h : content.Plain) :
    Laid (Tagged.body form layout content) := by
  refine laid_part (List.forall_mem_nil _) (List.forall_mem_append.mpr ⟨?_, ?_⟩)
  · intro line hline
    obtain ⟨param, hparam, hline⟩ := List.mem_flatMap.mp hline
    have hplain := h.params param hparam
    exact written_hanging (Tagged.lead_param hform hplain.named) hplain.lines line hline
  · exact written_hanging (Tagged.lead_return hform) h.plain_returns

theorem Underlined.written_entryLines {head : List Char} {lines : List (List Char)} (hhead : Written head)
    (hlines : ∀ line ∈ lines, PlainLine line) :
    ∀ line ∈ Underlined.entryLines layout head lines, Written line := by
  rw [Underlined.entryLines, List.forall_mem_cons]
  refine ⟨hhead, ?_⟩
  intro line hline
  obtain ⟨text, htext, rfl⟩ := List.mem_map.mp hline
  exact ⟨layout.depth, text, rfl, (hlines text htext).edged, (hlines text htext).unbroken⟩

theorem Layout.Proper.edged (h : layout.Proper) : Edged layout.resultType :=
  edged_of_trim h.type_ne_nil h.type_trimmed

theorem Underlined.laid_body (hl : layout.Proper) (h : content.Plain) :
    Laid (Underlined.body layout content) := by
  have hheading : ∀ title ∈ ["Parameters", "Returns"], ∀ line ∈ Underlined.heading title,
      Written line := by
    have hedged : ∀ title ∈ ["Parameters", "Returns"], ∀ line ∈ Underlined.heading title,
        line ≠ [] ∧ trim line = line ∧ '\n' ∉ line := by decide +kernel
    intro title ht line hline
    obtain ⟨hne, htrim, hbreak⟩ := hedged title ht line hline
    exact written_of_edged (edged_of_trim hne htrim) hbreak
  refine (laid_part (hheading _ (by decide)) ?_).append (laid_part (hheading _ (by decide)) ?_)
  · intro line hline
    obtain ⟨param, hparam, hline⟩ := List.mem_flatMap.mp hline
    have hplain := h.params param hparam
    have hname := written_of_edged (edged_name hplain.named) (not_mem_name hplain.named (by decide))
    exact Underlined.written_entryLines hname hplain.lines line hline
  · have hlines := h.plain_returns
    cases hreturns : content.returns with
    | nil => exact List.forall_mem_nil _
    | cons first rest =>
      rw [hreturns] at hlines
      exact Underlined.written_entryLines (written_of_edged hl.edged hl.type_unbroken) hlines

theorem laid_body (hl : layout.Proper) (h : content.Plain) (convention : Convention) :
    Laid (convention.body layout content) := by
  cases convention with
  | google => exact Indented.laid_body h
  | epytext => exact Tagged.laid_body (Or.inl rfl) h
  | rest => exact Tagged.laid_body (Or.inr rfl) h
  | numpydoc => exact Underlined.laid_body hl h

/-- **The lines of a docstring** are those that were laid out. -/
theorem lines_document (hl : layout.Proper) (h : content.Plain) (convention : Convention) :
    lines (convention.document layout content).toList = convention.layout layout content := by
  have hbody := laid_body hl h convention
  have hsummary := h.summary.written
  -- the last line is the last one of the body, or the summary if there is no body
  have hlast : (convention.layout layout content).getLast? ≠ some [] := by
    intro hnil
    rw [Convention.layout, ← List.singleton_append, List.getLast?_append,
      Option.or_eq_some_iff] at hnil
    rcases hnil with hnil | ⟨-, hnil⟩
    · exact (hbody.last [] hnil).ne_nil rfl
    · exact hsummary.ne_nil (Option.some.inj hnil)
  rw [Convention.document, String.toList_ofList]
  refine lines_join (List.cons_ne_nil _ _) (List.forall_mem_cons.mpr ⟨hsummary.unbroken, ?_⟩)
    (List.forall_mem_cons.mpr ⟨hsummary.getLast?_ne, ?_⟩) hlast
  · intro line hline
    rcases hbody.line line hline with rfl | hwritten
    · exact List.not_mem_nil
    · exact hwritten.unbroken
  · intro line hline
    rcases hbody.line line hline with rfl | hwritten
    · decide
    · exact hwritten.getLast?_ne

end ClassCli.Docstring
