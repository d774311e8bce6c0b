import ClassCli.Proofs.Code.Nesting

/-!
# Putting lines into blocks

Definitions stand at the top level of a file, with two blank lines behind each of them. Lines that start
at the top level stay as they are wherever they are put between such definitions, so that a file that is
built by insertion is the plain sequence of its parts.

* **`Block.insert_flush`** — lines of the top level in front of a line of the top level.
* **`Definition.Shows`** — what a definition under construction holds; one lemma for each operation.
* **`Match.block_lines`** — a match is written as one statement with one suite for each case.
-/

namespace ClassCli.Code

open Statement (heightAll linesAll SolidAll)

/-! ## Lines of the top level -/

/-- The two blank lines behind a definition. -/
def gap : List Line := [Line.empty, Line.empty]

/-- A function definition: its first line at the top level and its body one level deeper. -/
def functionLines (head : String) (body : List String) : List Line :=
  ⟨head, 0⟩ :: body.map fun text => ⟨text, 1⟩

/-- Lines that start at the top level, with every blank line there too and no level beyond a machine word. -/
structure Flush (lines : List Line) : Prop where
  blank : ∀ line ∈ lines, line.isBlank = true → line.level = 0
  first : ∀ level ∈ firstLevel? lines, level = 0
  fits : ∀ line ∈ lines, line.level < UInt64.size

theorem firstLevel?_append (front back : List Line) :
    firstLevel? (front ++ back) = (firstLevel? front).or (firstLevel? back) := by
  simp only [firstLevel?, List.find?_append]
  cases front.find? (!·.isBlank) <;> simp

/-- Moving lines of the top level to the top level leaves them as they are. -/
theorem moveTo_flush {lines : List Line} (h : Flush lines) : moveTo 0 lines = lines := by
  unfold moveTo
  split
  · rfl
  · rename_i first hfirst
    obtain rfl : first = 0 := h.first first hfirst
    have hsame : ∀ line ∈ lines, Line.shift 0 0 line = line := by
      intro line hl
      obtain ⟨text, level⟩ := line
      cases hb : (⟨text, level⟩ : Line).isBlank with
      | true =>
        obtain rfl : level = 0 := h.blank _ hl hb
        simp only [Line.shift, hb, if_true]
      | false =>
        have hword : word level = level := word_of_lt (h.fits _ hl)
        simp [Line.shift, hb, hword]
    calc lines.map (Line.shift 0 0) = lines.map id := List.map_congr_left hsame
      _ = lines := List.map_id lines

namespace Flush

theorem nil : Flush [] := ⟨by simp, by simp [firstLevel?], by simp⟩

theorem append {front back : List Line} (hf : Flush front) (hb : Flush back) :
    Flush (front ++ back) := by
  refine ⟨?_, ?_, ?_⟩
  · intro line hl
    rcases List.mem_append.mp hl with hl | hl
    · exact hf.blank line hl
    · exact hb.blank line hl
  · intro level hlevel
    rw [firstLevel?_append] at hlevel
    cases hfirst : firstLevel? front with
    | none =>
      rw [hfirst] at hlevel
      exact hb.first level hlevel
    | some first =>
      rw [hfirst] at hlevel
      obtain rfl : first = level := by simpa using hlevel
      exact hf.first first hfirst
  · intro line hl
    rcases List.mem_append.mp hl with hl | hl
    · exact hf.fits line hl
    · exact hb.fits line hl

theorem flatMap {α : Type} {f : α → List Line} {items : List α} (h : ∀ item ∈ items, Flush (f item)) :
    Flush (items.flatMap f) := by
  induction items with
  | nil => exact nil
  | cons item rest ih =>
    rw [List.flatMap_cons]
    exact (h item List.mem_cons_self).append
      (ih fun other ho => h other (List.mem_cons_of_mem item ho))

end Flush

/-- A gap holds nothing but blank lines. -/
theorem filter_gap : gap.filter (!·.isBlank) = [] := by decide

theorem flush_gap : Flush gap :=
  ⟨by simp [gap, Line.empty], by simp [gap, firstLevel?, Line.isBlank, Line.empty], by simp [gap, Line.empty]⟩

/-- Statements written at the top level are lines of the top level. -/
theorem flush_linesAll {trees : List Statement} (h : SolidAll trees) (hfits : heightAll trees ≤ UInt64.size) :
    Flush (linesAll 0 trees) := by
  refine ⟨?_, ?_, ?_⟩
  · intro line hl hb
    rw [Statement.not_isBlank_of_mem_linesAll trees 0 h line hl] at hb
    exact absurd hb (by simp)
  · intro level hlevel
    cases trees with
    | nil => exact absurd hlevel (by simp [firstLevel?])
    | cons tree rest =>
      rw [firstLevel?_linesAll 0 rest h.1] at hlevel
      exact (Option.some.inj hlevel).symm
  · intro line hl
    have hlevel := Statement.level_lt_of_mem_linesAll trees 0 line hl
    omega

theorem functionLines_eq_linesAll (head : String) (body : List String) :
    functionLines head body = linesAll 0 [.node head (body.map .leaf)] := by
  simp [functionLines, Statement.lines_node, Statement.linesAll_leaves]

theorem solidAll_leaves {texts : List String} (h : "" ∉ texts) : SolidAll (texts.map .leaf) := by
  refine (Statement.solidAll_iff _).mpr ?_
  intro tree ht
  obtain ⟨text, hmem, rfl⟩ := List.mem_map.mp ht
  rw [Statement.solid_leaf]
  rintro rfl
  exact h hmem

/-- Leaves stand at one level, which fits into a machine word. -/
theorem flush_leaves {texts : List String} (h : "" ∉ texts) : Flush (linesAll 0 (texts.map .leaf)) :=
  flush_linesAll (solidAll_leaves h) (Nat.le_trans (Statement.heightAll_leaves texts) (by decide))

theorem flush_functionLines {head : String} {body : List String} (hh : head ≠ "") (hb : "" ∉ body) :
    Flush (functionLines head body) := by
  rw [functionLines_eq_linesAll]
  refine flush_linesAll ⟨⟨hh, solidAll_leaves hb⟩, trivial⟩ ?_
  have hbody := Statement.heightAll_leaves body
  simp only [Statement.heightAll_cons, Statement.heightAll_nil, Statement.height_node, UInt64.size]
  omega

/-! ## Blocks -/

namespace Block

theorem appendLines_eq (block : Block) (texts : List String) :
    block.appendLines texts
      = ⟨block.lines ++ texts.map fun text => ⟨text, block.cursor⟩, block.cursor⟩ := by
  induction texts generalizing block with
  | nil => simp [appendLines]
  | cons text rest ih =>
    show (block.appendLine text).appendLines rest = _
    rw [ih]
    simp [appendLine, List.append_assoc]

theorem ofTexts_lines (texts : List String) :
    (ofTexts texts).lines = linesAll 0 (texts.map .leaf) := by
  simp [ofTexts, appendLines_eq, Statement.linesAll_leaves]

theorem separate_eq (block : Block) : block.separate = ⟨block.lines ++ gap, block.cursor⟩ := by
  simp [separate, blankLine, gap, List.append_assoc]

/-- Written statements are put at the cursor. -/
theorem append_linesAll (block : Block) (first : Nat) {trees : List Statement} (h : SolidAll trees)
    (hfits : first + block.cursor + heightAll trees ≤ UInt64.size) :
    block.append (linesAll first trees)
      = ⟨block.lines ++ linesAll block.cursor trees, block.cursor⟩ := by
  rw [append, moveTo_linesAll first block.cursor h hfits]

/-- **Lines of the top level go in front of a line of the top level as they are.** -/
theorem insert_flush {above below content : List Line} {cursor : Nat} (hc : Flush content)
    (hb : firstLevel? below = some 0) :
    (⟨above ++ below, cursor⟩ : Block).insert content above.length
      = ⟨above ++ content ++ below, cursor⟩ := by
  have hlevel : (⟨above ++ below, cursor⟩ : Block).levelAt above.length = 0 := by
    simp [levelAt, hb]
  rw [insert, hlevel, moveTo_flush hc]
  simp

/-- Lines of the top level go in front of everything if it starts at the top level. -/
theorem insert_top {below content : List Line} {cursor : Nat} (hc : Flush content)
    (hb : firstLevel? below = some 0) :
    (⟨below, cursor⟩ : Block).insert content 0 = ⟨content ++ below, cursor⟩ := by
  have hlevel : (⟨below, cursor⟩ : Block).levelAt 0 = 0 := by
    simp [levelAt, hb]
  rw [insert, hlevel, moveTo_flush hc]
  simp

end Block

/-! ## Definitions under construction -/

theorem header_ne_empty (name : String) (params : List (String × String)) (returns : Option String) :
    header name params returns ≠ "" := by
  simp [header]

namespace Definition

/-- A definition stands below other lines, with a body written so far. -/
structure Shows (definition : Definition) (above : List Line) (head : String) (body : List String) :
    Prop where
  block : definition.block = ⟨above ++ functionLines head body, 1⟩
  head_ne_empty : head ≠ ""

namespace Shows

theorem start (name : String) (params : List (String × String)) (returns : Option String) :
    (Definition.start name params returns).Shows [] (header name params returns) [] :=
  ⟨rfl, header_ne_empty name params returns⟩

variable {definition : Definition} {above : List Line} {head : String} {body : List String}

theorem appendLines (h : definition.Shows above head body) (texts : List String) :
    (definition.appendLines texts).Shows above head (body ++ texts) := by
  refine ⟨?_, h.head_ne_empty⟩
  show definition.block.appendLines texts = _
  rw [Block.appendLines_eq, h.block]
  simp [functionLines, List.append_assoc]

theorem appendLine (h : definition.Shows above head body) (text : String) :
    (definition.appendLine text).Shows above head (body ++ [text]) := h.appendLines [text]

theorem firstLevel?_functionLines (hh : head ≠ "") :
    firstLevel? (functionLines head body) = some 0 := firstLevel?_cons hh 0 _

/-- Lines that are put directly above a definition stand below those that were there before. -/
theorem putAbove (h : definition.Shows above head body) {content : List Line}
    (hc : Flush content) :
    (definition.putAbove content above.length).Shows (above ++ content) head body := by
  refine ⟨?_, h.head_ne_empty⟩
  show definition.block.insert content above.length = _
  rw [h.block]
  exact Block.insert_flush hc (firstLevel?_functionLines h.head_ne_empty)

/-- Lines that are put at the top stand above those that were there before. -/
theorem putTop (h : definition.Shows above head body) {content : List Line} (ha : Flush above)
    (hc : Flush content) : (definition.putAbove content).Shows (content ++ above) head body := by
  have hfirst : firstLevel? (above ++ functionLines head body) = some 0 := by
    rw [firstLevel?_append, firstLevel?_functionLines h.head_ne_empty]
    cases hlevel : firstLevel? above with
    | none => rfl
    | some level =>
      rw [ha.first level hlevel]
      rfl
  refine ⟨?_, h.head_ne_empty⟩
  show definition.block.insert content 0 = _
  rw [h.block]
  simpa [List.append_assoc] using Block.insert_top hc hfirst

end Shows

end Definition

/-! ## Matches as statements -/

/-- The first line of a case. -/
def caseHead (pattern : Pattern) : String := "case " ++ pattern.shown ++ ":"

/-- A case as a statement. -/
def caseTree (pattern : Pattern) (suite : List Statement) : Statement := .node (caseHead pattern) suite

/-- A match as a statement. -/
def matchTree (subject : String) (cases : List Statement) : Statement :=
  .node ("match " ++ subject ++ ":") cases

/-- A case with a suite, each line of which is a statement. -/
theorem Case.of_linesAll (pattern : Pattern) (level : Nat) {suite : List Statement} (h : SolidAll suite)
    (hfits : level + heightAll suite ≤ UInt64.size) :
    Case.of pattern (linesAll level suite) = ⟨pattern, linesAll 0 suite⟩ := by
  rw [Case.of, Block.append_linesAll {} level h hfits]
  rfl

theorem Case.block_lines (pattern : Pattern) {suite : List Statement} (h : SolidAll suite)
    (hfits : heightAll suite < UInt64.size) :
    (⟨pattern, linesAll 0 suite⟩ : Case).block.lines = linesAll 0 [caseTree pattern suite] := by
  have hcursor : (Block.single ("case " ++ pattern.shown ++ ":")).indent.cursor = 1 := rfl
  have hroom : 0 + (Block.single ("case " ++ pattern.shown ++ ":")).indent.cursor + heightAll suite
      ≤ UInt64.size := by
    rw [hcursor]
    omega
  rw [Case.block, Block.append_linesAll _ 0 h hroom, caseTree, caseHead, Statement.linesAll_cons,
    Statement.linesAll_nil, List.append_nil, Statement.lines_node]
  rfl

theorem caseTree_solid (pattern : Pattern) {suite : List Statement} (h : SolidAll suite) :
    (caseTree pattern suite).Solid :=
  ⟨by simp [caseHead], h⟩

theorem matchTree_solid (subject : String) {cases : List Statement} (h : SolidAll cases) :
    (matchTree subject cases).Solid :=
  ⟨by simp, h⟩

/-- The cases of a match whose suites are given as statements. -/
def casesOf (cases : List (Pattern × List Statement)) : List Case :=
  cases.map fun c => ⟨c.1, linesAll 0 c.2⟩

/-- The statements of the cases of a match. -/
def caseTrees (cases : List (Pattern × List Statement)) : List Statement :=
  cases.map fun c => caseTree c.1 c.2

theorem caseTrees_solid {cases : List (Pattern × List Statement)} (h : ∀ c ∈ cases, SolidAll c.2) :
    SolidAll (caseTrees cases) := by
  refine (Statement.solidAll_iff _).mpr ?_
  intro tree ht
  obtain ⟨c, hc, rfl⟩ := List.mem_map.mp ht
  exact caseTree_solid c.1 (h c hc)

theorem heightAll_caseTrees_le {cases : List (Pattern × List Statement)} {bound : Nat}
    (h : ∀ c ∈ cases, heightAll c.2 ≤ bound) : heightAll (caseTrees cases) ≤ bound + 1 := by
  refine Statement.heightAll_le_iff.mpr ?_
  intro tree ht
  obtain ⟨c, hc, rfl⟩ := List.mem_map.mp ht
  exact Nat.succ_le_succ (h c hc)

/-- Writing the cases one after the other puts their statements at the cursor. -/
theorem foldl_append_cases (cases : List (Pattern × List Statement)) (h : ∀ c ∈ cases, SolidAll c.2) :
    ∀ block : Block, (∀ c ∈ cases, block.cursor + heightAll c.2 < UInt64.size) →
      (casesOf cases).foldl (fun block c => block.append c.block.lines) block
        = ⟨block.lines ++ linesAll block.cursor (caseTrees cases), block.cursor⟩ := by
  induction cases with
  | nil =>
    intro block _
    simp [casesOf, caseTrees]
  | cons c rest ih =>
    intro block hfits
    have hc : SolidAll c.2 := h c List.mem_cons_self
    have hroom : block.cursor + heightAll c.2 < UInt64.size := hfits c List.mem_cons_self
    have htree : SolidAll [caseTree c.1 c.2] := ⟨caseTree_solid c.1 hc, trivial⟩
    have htreeRoom : 0 + block.cursor + heightAll [caseTree c.1 c.2] ≤ UInt64.size := by
      simp only [caseTree, Statement.heightAll_cons, Statement.heightAll_nil, Statement.height_node]
      omega
    show (casesOf rest).foldl _ (block.append (⟨c.1, linesAll 0 c.2⟩ : Case).block.lines) = _
    rw [Case.block_lines c.1 hc (by omega), Block.append_linesAll block 0 htree htreeRoom,
      ih (fun other ho => h other (List.mem_cons_of_mem c ho)) ⟨block.lines ++ linesAll block.cursor _, block.cursor⟩
        fun other ho => hfits other (List.mem_cons_of_mem c ho)]
    simp [caseTrees, List.append_assoc]

/-- **A match is written as one statement** with one suite for each case. -/
theorem Match.block_lines (subject : String) (cases : List (Pattern × List Statement))
    (h : ∀ c ∈ cases, SolidAll c.2) (hfits : ∀ c ∈ cases, 1 + heightAll c.2 < UInt64.size) :
    (⟨subject, casesOf cases⟩ : Match).block.lines
      = linesAll 0 [matchTree subject (caseTrees cases)] := by
  show ((casesOf cases).foldl _ (Block.single ("match " ++ subject ++ ":")).indent).lines = _
  rw [foldl_append_cases cases h _ hfits, matchTree, Statement.linesAll_cons, Statement.linesAll_nil, List.append_nil,
    Statement.lines_node]
  rfl

end ClassCli.Code
