import ClassCli.Proofs.Code.Lookup
import ClassCli.Proofs.Code.Placement
import ClassCli.Proofs.Text.Splitting

/-!
# Layout by indentation

Python reads the structure of a program off its physical lines: a line that ends in a colon opens a suite,
the lines one level deeper that come next, and no other line may be followed by a deeper one. Here this is
stated for lines with levels, and it holds for written statements if a line ends in a colon exactly where
something belongs to it.

* **`OneLine`** — a text without line ends, with a lemma for each kind of text that code consists of.
* **`LaidOut`** — lines that Python reads as they are meant.
* **`laidOut_of_filter`** — written statements are laid out, with blank lines wherever they are.
-/

namespace ClassCli.Code

open Interface (Argument)
open Statement (linesAll)

/-! ## Texts in one line -/

/-- The characters that end a physical line of a Python program. -/
def lineEnds : List Char := ['\n', '\r']

theorem forall_lineEnds {P : Char → Prop} : (∀ c ∈ lineEnds, P c) ↔ P '\n' ∧ P '\r' := by
  simp [lineEnds]

/-- A text that stays in one line. -/
def OneLine (text : String) : Prop := ∀ c ∈ lineEnds, c ∉ text.toList

instance (text : String) : Decidable (OneLine text) :=
  List.decidableBAll (fun c => c ∉ text.toList) lineEnds

@[simp] theorem oneLine_append {front back : String} :
    OneLine (front ++ back) ↔ OneLine front ∧ OneLine back := by
  simp only [OneLine, String.toList_append, List.mem_append, not_or]
  exact ⟨fun h => ⟨fun c hc => (h c hc).1, fun c hc => (h c hc).2⟩, fun ⟨hf, hb⟩ c hc => ⟨hf c hc, hb c hc⟩⟩

/-- A text stays in one line if its characters are of a class that line ends are not in. -/
theorem OneLine.of_class {text : String} {test : Char → Bool} (h : ∀ c ∈ text.toList, test c = true)
    (hends : ∀ c ∈ lineEnds, test c = false) : OneLine text := by
  intro c hc hmem
  have hfalse := hends c hc
  rw [h c hmem] at hfalse
  cases hfalse

theorem OneLine.of_identifier {name : String} (h : Text.isIdentifier name.toList = true) : OneLine name :=
  OneLine.of_class (isWord_of_isIdentifier h).2 (forall_lineEnds.mpr (by decide))

theorem OneLine.of_numeral {text : String} (h : Numeral text.toList) : OneLine text :=
  OneLine.of_class h (forall_lineEnds.mpr (by decide))

theorem OneLine.joinStrings {separator : String} {pieces : List String} (hs : OneLine separator)
    (h : ∀ piece ∈ pieces, OneLine piece) : OneLine (Text.joinStrings separator pieces) := by
  intro c hc
  rw [Text.joinStrings, String.toList_ofList]
  refine Text.not_mem_join (hs c hc) ?_
  intro piece hp
  obtain ⟨text, ht, rfl⟩ := List.mem_map.mp hp
  exact h text ht c hc

/-- Line ends are written as escapes. -/
theorem not_mem_escaped {c : Char} (hc : c ∈ lineEnds) (other : Char) : c ∉ escaped other := by
  by_cases hother : other ∈ escapes
  · have hwritten : ∀ a ∈ escapes, ∀ b ∈ lineEnds, b ∉ escaped a := by
      rw [forall_escapes]
      simp only [forall_lineEnds]
      decide
    exact hwritten other hother c hc
  · have hends : ∀ a ∈ lineEnds, a ∈ escapes := forall_lineEnds.mpr (by decide)
    rw [escaped_of_not_mem hother, List.mem_singleton]
    rintro rfl
    exact hother (hends c hc)

/-- **A quoted text stays in one line**, whatever the text. -/
@[simp] theorem oneLine_quote (text : String) : OneLine (quote text) := by
  intro c hc
  have hmark : ∀ a ∈ lineEnds, a ∉ ['\x27'] := forall_lineEnds.mpr (by decide)
  rw [quote, String.toList_ofList, List.cons_append, List.mem_cons, List.mem_append, List.mem_flatMap,
    ← List.mem_singleton]
  rintro (h | ⟨other, -, h⟩ | h)
  · exact hmark c hc h
  · exact not_mem_escaped hc other h
  · exact hmark c hc h

theorem oneLine_number (x : Decimal.Binary64) : OneLine (number x) := by
  unfold number
  split
  · decide
  · split
    · split
      · decide
      · decide
    · exact OneLine.of_numeral (Numeral.floatText x)

mutual

/-- **A value stays in one line.** -/
theorem oneLine_literal : ∀ value : Literal, OneLine (literal value)
  | .none => by decide
  | .bool true => by decide
  | .bool false => by decide
  | .int i => OneLine.of_numeral (Numeral.integerText i.toInt)
  | .float x => oneLine_number x
  | .str s => oneLine_quote s
  | .list items => by
    have hitems : OneLine (Text.joinStrings ", " (literals items)) :=
      OneLine.joinStrings (by decide) (oneLine_literals items)
    rw [literal]
    simp +decide [hitems]

theorem oneLine_literals : ∀ values : List Literal, ∀ text ∈ literals values, OneLine text
  | [], text, ht => absurd ht (by simp [literals])
  | value :: rest, text, ht => by
    rcases List.mem_cons.mp ht with rfl | ht
    · exact oneLine_literal value
    · exact oneLine_literals rest text ht

end

theorem oneLine_callArgs {args : List Argument} (h : ∀ arg ∈ args, OneLine arg.destination) :
    OneLine (callArgs args) := by
  refine OneLine.joinStrings (by decide) ?_
  intro text ht
  obtain ⟨arg, ha, rfl⟩ := List.mem_map.mp ht
  simp +decide [h arg ha]

theorem oneLine_pattern (pattern : Pattern) : OneLine pattern.shown := by
  cases pattern with
  | str value => exact oneLine_quote value
  | int value => exact OneLine.of_numeral (Numeral.integerText value)
  | anything => decide

theorem oneLine_parameter {name typeHint : String} (hn : OneLine name) (ht : OneLine typeHint) :
    OneLine (parameter name typeHint) := by
  unfold parameter
  split
  · exact hn
  · simp +decide [hn, ht]

theorem oneLine_header {name : String} {params : List (String × String)} {returns : Option String}
    (hn : OneLine name) (hp : ∀ param ∈ params, OneLine param.1 ∧ OneLine param.2)
    (hr : ∀ typeHint ∈ returns, OneLine typeHint) : OneLine (header name params returns) := by
  unfold header
  simp only [oneLine_append]
  refine ⟨⟨⟨⟨⟨⟨by decide, hn⟩, by decide⟩, OneLine.joinStrings (by decide) ?_⟩, by decide⟩, ?_⟩, by decide⟩
  · intro text ht
    obtain ⟨param, hmem, rfl⟩ := List.mem_map.mp ht
    exact oneLine_parameter (hp param hmem).1 (hp param hmem).2
  · cases returns with
    | none => decide
    | some typeHint => simp +decide [hr typeHint rfl]

/-! ## The layout of lines -/

/-- Whether a line opens a suite. -/
def opensSuite (text : String) : Bool := text.toList.getLast? == some ':'

/-- Lines that Python reads as they are meant: a suite begins exactly below a line that opens one. -/
structure LaidOut (lines : List Line) : Prop where
  /-- What is written as one line is one line. -/
  oneLine : ∀ line ∈ lines, OneLine line.text
  /-- The first line that is not blank stands at the top level. -/
  first : firstLevel? lines = some 0
  /-- Below a line that opens a suite something follows, and it stands one level deeper. -/
  opening : ∀ line below, line :: below <:+ lines → opensSuite line.text = true →
    firstLevel? below = some (line.level + 1)
  /-- Nothing deeper follows below another line that is not blank. -/
  closing : ∀ line below, line :: below <:+ lines → line.isBlank = false →
    opensSuite line.text = false → ∀ level ∈ firstLevel? below, level ≤ line.level

theorem opensSuite_append (front : String) {back : String} (h : back ≠ "") :
    opensSuite (front ++ back) = opensSuite back := by
  have hne : back.toList ≠ [] := by simpa using h
  rw [opensSuite, opensSuite, String.toList_append, List.getLast?_append_of_ne_nil _ hne]

theorem opensSuite_header (name : String) (params : List (String × String)) (returns : Option String) :
    opensSuite (header name params returns) = true := by
  unfold header
  rw [opensSuite_append _ (by decide)]
  decide

/-- Blank lines do not count for the level of what follows. -/
theorem firstLevel?_filter (lines : List Line) :
    firstLevel? (lines.filter (!·.isBlank)) = firstLevel? lines := by
  rw [firstLevel?, firstLevel?, List.find?_filter]
  simp

/-- What a line asks of itself and of the lines below it. -/
structure Placed (line : Line) (below : List Line) : Prop where
  oneLine : OneLine line.text
  opening : opensSuite line.text = true → firstLevel? below = some (line.level + 1)
  closing : opensSuite line.text = false → ∀ level ∈ firstLevel? below, level ≤ line.level

/-- Every line is placed in front of those below it. -/
def AllPlaced : List Line → Prop
  | [] => True
  | line :: below => Placed line below ∧ AllPlaced below

theorem AllPlaced.of_suffix {lines : List Line} (h : AllPlaced lines) {line : Line} {below : List Line}
    (hs : line :: below <:+ lines) : Placed line below := by
  induction lines with
  | nil => exact absurd (List.suffix_nil.mp hs) (List.cons_ne_nil _ _)
  | cons first rest ih =>
    rcases List.suffix_cons_iff.mp hs with heq | hs
    · obtain ⟨rfl, rfl⟩ := List.cons.inj heq
      exact h.1
    · exact ih h.2 hs

/-- **Blank lines may stand anywhere** between lines that are placed. -/
theorem AllPlaced.laidOut {lines : List Line} (h : AllPlaced (lines.filter (!·.isBlank)))
    (hf : firstLevel? lines = some 0) : LaidOut lines := by
  -- a line that is not blank stands in front of the same lines, those that are blank aside
  have hplaced : ∀ line below, line :: below <:+ lines → line.isBlank = false →
      Placed line (below.filter (!·.isBlank)) := by
    intro line below hs hb
    have hfiltered := hs.filter (!·.isBlank)
    rw [List.filter_cons_of_pos (by simp [hb])] at hfiltered
    exact h.of_suffix hfiltered
  refine ⟨?_, hf, ?_, ?_⟩
  · intro line hl
    obtain ⟨above, below, hsplit⟩ := List.append_of_mem hl
    cases hb : line.isBlank with
    | true =>
      have htext : line.text = "" := by simpa [Line.isBlank] using hb
      rw [htext]
      decide
    | false => exact (hplaced line below ⟨above, hsplit.symm⟩ hb).oneLine
  · intro line below hs ho
    have hb : line.isBlank = false := by
      rw [Line.isBlank, beq_eq_false_iff_ne]
      intro htext
      rw [htext] at ho
      exact absurd ho (by decide)
    rw [← firstLevel?_filter below]
    exact (hplaced line below hs hb).opening ho
  · intro line below hs hb hc
    rw [← firstLevel?_filter below]
    exact (hplaced line below hs hb).closing hc

/-! ## Statements whose lines open suites -/

/-- A line that nothing belongs to. -/
structure SimpleLine (text : String) : Prop where
  oneLine : OneLine text
  ne_empty : text ≠ ""
  closed : opensSuite text = false

instance (text : String) : Decidable (SimpleLine text) :=
  decidable_of_iff (OneLine text ∧ text ≠ "" ∧ opensSuite text = false)
    ⟨fun ⟨hl, hne, hc⟩ => ⟨hl, hne, hc⟩, fun h => ⟨h.oneLine, h.ne_empty, h.closed⟩⟩

/-- What stands at the end of a line decides whether it is simple. -/
theorem SimpleLine.append {front back : String} (hf : OneLine front) (hb : SimpleLine back) :
    SimpleLine (front ++ back) where
  oneLine := oneLine_append.mpr ⟨hf, hb.oneLine⟩
  ne_empty := by simp [hb.ne_empty]
  closed := by rw [opensSuite_append _ hb.ne_empty, hb.closed]

/-- A name is a line that nothing belongs to. -/
theorem SimpleLine.of_identifier {name : String} (h : Text.isIdentifier name.toList = true) :
    SimpleLine name where
  oneLine := OneLine.of_identifier h
  ne_empty := by simpa using (isWord_of_isIdentifier h).1
  closed := by
    rw [opensSuite, beq_eq_false_iff_ne]
    intro hlast
    have hname := (isWord_of_isIdentifier h).2 ':' (List.mem_of_getLast? hlast)
    exact absurd hname (by decide)

namespace Statement

mutual

/-- Each line of a statement is one line, and it opens a suite exactly if there is one. -/
def Sound : Statement → Prop
  | node text suite => OneLine text ∧ text ≠ "" ∧ opensSuite text = !suite.isEmpty ∧ SoundAll suite

/-- The same for each of several statements. -/
def SoundAll : List Statement → Prop
  | [] => True
  | tree :: rest => Sound tree ∧ SoundAll rest

end

theorem sound_leaf {text : String} (h : SimpleLine text) : (leaf text).Sound :=
  ⟨h.oneLine, h.ne_empty, h.closed, trivial⟩

theorem sound_node {text : String} {suite : List Statement} (hl : OneLine text)
    (ho : opensSuite text = true) (hne : suite ≠ []) (hs : SoundAll suite) : (node text suite).Sound := by
  refine ⟨hl, ?_, ?_, hs⟩
  · rintro rfl
    exact absurd ho (by decide)
  · simpa [ho] using hne

theorem soundAll_iff (trees : List Statement) : SoundAll trees ↔ ∀ tree ∈ trees, tree.Sound := by
  induction trees with
  | nil => simp [SoundAll]
  | cons tree rest ih => simp [SoundAll, ih]

theorem soundAll_append {front back : List Statement} (hf : SoundAll front) (hb : SoundAll back) :
    SoundAll (front ++ back) := by
  rw [soundAll_iff] at hf hb ⊢
  intro tree ht
  rcases List.mem_append.mp ht with ht | ht
  · exact hf tree ht
  · exact hb tree ht

theorem soundAll_leaves {texts : List String} (h : ∀ text ∈ texts, SimpleLine text) :
    SoundAll (texts.map leaf) := by
  rw [soundAll_iff]
  intro tree ht
  obtain ⟨text, hmem, rfl⟩ := List.mem_map.mp ht
  exact sound_leaf (h text hmem)

/-- The first line of statements stands at their level; what follows them counts if there are none. -/
theorem firstLevel?_linesAll_append (level : Nat) {tree : Statement} (h : tree.Sound)
    (others : List Statement) (rest : List Line) :
    firstLevel? (linesAll level (tree :: others) ++ rest) = some level := by
  obtain ⟨text, suite⟩ := tree
  exact firstLevel?_cons h.2.1 level _

-- The induction is on the statements; what follows them is not deeper, so that it can stand below the
-- last of them.
mutual

theorem allPlaced_lines_append :
    ∀ (tree : Statement) (level : Nat) (rest : List Line), tree.Sound →
      (∀ next ∈ firstLevel? rest, next ≤ level) → AllPlaced rest → AllPlaced (tree.lines level ++ rest)
  | node text suite, level, rest, ⟨hl, _, ho, hs⟩, hnext, hrest => by
    have hdeeper : ∀ next ∈ firstLevel? rest, next ≤ level + 1 :=
      fun next hn => Nat.le_succ_of_le (hnext next hn)
    refine ⟨⟨hl, ?_, ?_⟩, allPlaced_linesAll_append suite (level + 1) rest hs hdeeper hrest⟩
    · intro hopens
      cases suite with
      | nil =>
        rw [hopens] at ho
        cases ho
      | cons first others => exact firstLevel?_linesAll_append (level + 1) hs.1 others rest
    · intro hcloses
      cases suite with
      | nil => exact hnext
      | cons first others =>
        rw [hcloses] at ho
        cases ho

/-- **Written statements are placed** in front of anything that is placed and not deeper. -/
theorem allPlaced_linesAll_append :
    ∀ (trees : List Statement) (level : Nat) (rest : List Line), SoundAll trees →
      (∀ next ∈ firstLevel? rest, next ≤ level) → AllPlaced rest →
      AllPlaced (linesAll level trees ++ rest)
  | [], _, _, _, _, hrest => hrest
  | tree :: others, level, rest, h, hnext, hrest => by
    rw [linesAll_cons, List.append_assoc]
    have hothers := allPlaced_linesAll_append others level rest h.2 hnext hrest
    refine allPlaced_lines_append tree level _ h.1 ?_ hothers
    cases others with
    | nil => exact hnext
    | cons second more =>
      rw [firstLevel?_linesAll_append level h.2.1 more rest]
      intro next hn
      obtain rfl := Option.mem_some.mp hn
      exact Nat.le_refl level

end

end Statement

open Statement (Sound SoundAll)

/-- **Written statements are laid out**, with blank lines wherever they are. -/
theorem laidOut_of_filter {lines : List Line} {trees : List Statement} (h : SoundAll trees)
    (hne : trees ≠ []) (hl : lines.filter (!·.isBlank) = linesAll 0 trees) : LaidOut lines := by
  obtain ⟨tree, others, rfl⟩ := List.exists_cons_of_ne_nil hne
  refine AllPlaced.laidOut ?_ ?_
  · have hplaced := Statement.allPlaced_linesAll_append (tree :: others) 0 [] h
      (by simp [firstLevel?]) trivial
    rwa [List.append_nil, ← hl] at hplaced
  · have hfirst := Statement.firstLevel?_linesAll_append 0 h.1 others []
    rwa [List.append_nil, ← hl, firstLevel?_filter] at hfirst

/-! ## Functions and matches -/

theorem sound_function {name : String} {params : List (String × String)} {returns : Option String}
    {suite : List Statement} (hn : OneLine name)
    (hp : ∀ param ∈ params, OneLine param.1 ∧ OneLine param.2)
    (hr : ∀ typeHint ∈ returns, OneLine typeHint) (hne : suite ≠ []) (hs : SoundAll suite) :
    (Statement.node (header name params returns) suite).Sound :=
  Statement.sound_node (oneLine_header hn hp hr) (opensSuite_header name params returns) hne hs

theorem sound_caseTree (pattern : Pattern) {suite : List Statement} (hne : suite ≠ [])
    (hs : SoundAll suite) : (caseTree pattern suite).Sound := by
  refine Statement.sound_node ?_ ?_ hne hs
  · simp +decide [caseHead, oneLine_pattern]
  · rw [caseHead, opensSuite_append _ (by decide)]
    decide

theorem soundAll_caseTrees {cases : List (Pattern × List Statement)}
    (h : ∀ c ∈ cases, c.2 ≠ [] ∧ SoundAll c.2) : SoundAll (caseTrees cases) := by
  rw [Statement.soundAll_iff]
  intro tree ht
  obtain ⟨c, hc, rfl⟩ := List.mem_map.mp ht
  exact sound_caseTree c.1 (h c hc).1 (h c hc).2

theorem sound_matchTree {subject : String} {cases : List (Pattern × List Statement)}
    (hl : OneLine subject) (hne : cases ≠ []) (h : ∀ c ∈ cases, c.2 ≠ [] ∧ SoundAll c.2) :
    (matchTree subject (caseTrees cases)).Sound := by
  refine Statement.sound_node ?_ ?_ (by simpa [caseTrees] using hne) (soundAll_caseTrees h)
  · simp +decide [hl]
  · rw [opensSuite_append _ (by decide)]
    decide

end ClassCli.Code
