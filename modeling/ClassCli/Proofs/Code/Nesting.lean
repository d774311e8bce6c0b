import ClassCli.Code.Definition

/-!
# Lines as nested statements

Indentation alone says which lines belong together: a line owns the deeper lines that follow it. Here
lines are read into trees of statements by this rule, blank lines aside, and trees are written as lines
with the suite of a statement one level deeper than the statement itself.

* **`nest_linesAll`** — written trees read back, at whatever level they were written.
* **`Statement.height`** — how many levels a tree takes up.
* **`moveTo_linesAll`** — moving written trees to another level is writing them there, if its levels fit
  into a machine word.
-/

namespace ClassCli.Code

/-- A line with the statements that belong to it. -/
inductive Statement where
  | node (text : String) (suite : List Statement)
  deriving Repr, Inhabited

namespace Statement

/-- The line itself. -/
def text : Statement → String
  | node text _ => text

/-- What belongs to the line. -/
def suite : Statement → List Statement
  | node _ suite => suite

/-- A line that nothing belongs to. -/
def leaf (text : String) : Statement := node text []

/-! ## Writing -/

mutual

/-- A statement as lines, itself at a level and its suite one level deeper. -/
def lines (level : Nat) : Statement → List Line
  | node text suite => ⟨text, level⟩ :: linesAll (level + 1) suite

/-- Statements as lines, one after the other at the same level. -/
def linesAll (level : Nat) : List Statement → List Line
  | [] => []
  | tree :: rest => lines level tree ++ linesAll level rest

end

mutual

/-- No line of a statement is blank. -/
def Solid : Statement → Prop
  | node text suite => text ≠ "" ∧ SolidAll suite

/-- No line of any statement is blank. -/
def SolidAll : List Statement → Prop
  | [] => True
  | tree :: rest => Solid tree ∧ SolidAll rest

end

@[simp] theorem solidAll_nil : SolidAll [] := trivial

@[simp] theorem solidAll_cons (tree : Statement) (rest : List Statement) :
    SolidAll (tree :: rest) ↔ tree.Solid ∧ SolidAll rest := Iff.rfl

@[simp] theorem solid_node (text : String) (suite : List Statement) :
    (node text suite).Solid ↔ text ≠ "" ∧ SolidAll suite := Iff.rfl

@[simp] theorem solid_leaf (text : String) : (leaf text).Solid ↔ text ≠ "" := by
  simp [leaf]

theorem solidAll_iff (trees : List Statement) : SolidAll trees ↔ ∀ tree ∈ trees, tree.Solid := by
  induction trees with
  | nil => simp
  | cons tree rest ih => simp [ih]

@[simp] theorem solidAll_append (front back : List Statement) :
    SolidAll (front ++ back) ↔ SolidAll front ∧ SolidAll back := by
  simp only [solidAll_iff, List.mem_append]
  constructor
  · intro h
    exact ⟨fun tree ht => h tree (Or.inl ht), fun tree ht => h tree (Or.inr ht)⟩
  · rintro ⟨hf, hb⟩ tree (ht | ht)
    · exact hf tree ht
    · exact hb tree ht

@[simp] theorem linesAll_nil (level : Nat) : linesAll level [] = [] := rfl

@[simp] theorem linesAll_cons (level : Nat) (tree : Statement) (rest : List Statement) :
    linesAll level (tree :: rest) = tree.lines level ++ linesAll level rest := rfl

theorem lines_node (level : Nat) (text : String) (suite : List Statement) :
    (node text suite).lines level = ⟨text, level⟩ :: linesAll (level + 1) suite := rfl

@[simp] theorem lines_leaf (level : Nat) (text : String) :
    (leaf text).lines level = [⟨text, level⟩] := rfl

theorem linesAll_append (level : Nat) (front back : List Statement) :
    linesAll level (front ++ back) = linesAll level front ++ linesAll level back := by
  induction front with
  | nil => rfl
  | cons tree rest ih => simp [ih]

theorem linesAll_leaves (level : Nat) (texts : List String) :
    linesAll level (texts.map leaf) = texts.map fun text => ⟨text, level⟩ := by
  induction texts with
  | nil => rfl
  | cons text rest ih => simp [ih]

mutual

theorem not_isBlank_of_mem_lines :
    ∀ (tree : Statement) (level : Nat), tree.Solid → ∀ line ∈ tree.lines level, line.isBlank = false
  | node text suite, level, h, line, hl => by
    rcases List.mem_cons.mp hl with rfl | hl
    · simpa [Line.isBlank] using h.1
    · exact not_isBlank_of_mem_linesAll suite (level + 1) h.2 line hl

/-- **No written line is blank** if no statement is. -/
theorem not_isBlank_of_mem_linesAll :
    ∀ (trees : List Statement) (level : Nat), SolidAll trees →
      ∀ line ∈ linesAll level trees, line.isBlank = false
  | [], _, _, line, hl => absurd hl (by simp)
  | tree :: rest, level, h, line, hl => by
    rcases List.mem_append.mp hl with hl | hl
    · exact not_isBlank_of_mem_lines tree level h.1 line hl
    · exact not_isBlank_of_mem_linesAll rest level h.2 line hl

end

/-! ## Levels -/

mutual

/-- How many levels a statement takes up. -/
def height : Statement → Nat
  | node _ suite => heightAll suite + 1

/-- How many levels statements beside each other take up. -/
def heightAll : List Statement → Nat
  | [] => 0
  | tree :: rest => max (height tree) (heightAll rest)

end

@[simp] theorem heightAll_nil : heightAll [] = 0 := rfl

@[simp] theorem heightAll_cons (tree : Statement) (rest : List Statement) :
    heightAll (tree :: rest) = max tree.height (heightAll rest) := rfl

@[simp] theorem height_node (text : String) (suite : List Statement) :
    (node text suite).height = heightAll suite + 1 := rfl

@[simp] theorem height_leaf (text : String) : (leaf text).height = 1 := rfl

theorem heightAll_le_iff {trees : List Statement} {bound : Nat} :
    heightAll trees ≤ bound ↔ ∀ tree ∈ trees, tree.height ≤ bound := by
  induction trees with
  | nil => simp
  | cons tree rest ih => rw [heightAll_cons, Nat.max_le, ih, List.forall_mem_cons]

@[simp] theorem heightAll_append (front back : List Statement) :
    heightAll (front ++ back) = max (heightAll front) (heightAll back) := by
  induction front with
  | nil => simp
  | cons tree rest ih => simp [ih, Nat.max_assoc]

theorem heightAll_leaves (texts : List String) : heightAll (texts.map leaf) ≤ 1 := by
  refine heightAll_le_iff.mpr ?_
  intro tree ht
  obtain ⟨text, -, rfl⟩ := List.mem_map.mp ht
  exact Nat.le_refl 1

mutual

theorem level_lt_of_mem_lines :
    ∀ (tree : Statement) (level : Nat), ∀ line ∈ tree.lines level, line.level < level + tree.height
  | node text suite, level, line, hl => by
    rw [height_node]
    rcases List.mem_cons.mp hl with rfl | hl
    · dsimp only
      omega
    · have hsuite := level_lt_of_mem_linesAll suite (level + 1) line hl
      omega

/-- **The levels of written statements** are those that they take up from their own level on. -/
theorem level_lt_of_mem_linesAll :
    ∀ (trees : List Statement) (level : Nat), ∀ line ∈ linesAll level trees, line.level < level + heightAll trees
  | [], _, line, hl => absurd hl (by simp)
  | tree :: rest, level, line, hl => by
    rw [heightAll_cons]
    rcases List.mem_append.mp hl with hl | hl
    · have htree := level_lt_of_mem_lines tree level line hl
      omega
    · have hrest := level_lt_of_mem_linesAll rest level line hl
      omega

end

end Statement

open Statement (heightAll linesAll SolidAll)

/-! ## Reading -/

/-- A line in front of statements at their levels: the deeper ones that come first belong to it. -/
def adopt (line : Line) (below : List (Nat × Statement)) : List (Nat × Statement) :=
  (line.level, .node line.text ((below.takeWhile (line.level < ·.1)).map Prod.snd))
    :: below.dropWhile (line.level < ·.1)

/-- The statements of lines, each with its level. Blank lines say nothing. -/
def nestAt : List Line → List (Nat × Statement)
  | [] => []
  | line :: rest => if line.isBlank then nestAt rest else adopt line (nestAt rest)

/-- The statements of lines. -/
def nest (lines : List Line) : List Statement := (nestAt lines).map Prod.snd

/-- The first of some statements stands at most at a level. -/
def StartsBy (level : Nat) (trees : List (Nat × Statement)) : Prop :=
  ∀ first ∈ trees.head?, first.1 ≤ level

theorem StartsBy.mono {level next : Nat} {trees : List (Nat × Statement)} (h : StartsBy level trees)
    (hle : level ≤ next) : StartsBy next trees :=
  fun first hf => Nat.le_trans (h first hf) hle

theorem startsBy_map_append (level : Nat) (trees : List Statement) {rest : List (Nat × Statement)}
    (h : StartsBy level rest) : StartsBy level (trees.map (level, ·) ++ rest) := by
  cases trees with
  | nil => simpa using h
  | cons tree others =>
    intro first hf
    obtain rfl : (level, tree) = first := by simpa using hf
    exact Nat.le_refl level

/-- A line takes exactly the statements one level deeper if something as deep as itself follows. -/
theorem adopt_suite (text : String) (level : Nat) (suite : List Statement) {rest : List (Nat × Statement)}
    (h : StartsBy level rest) :
    adopt ⟨text, level⟩ (suite.map (level + 1, ·) ++ rest) = (level, .node text suite) :: rest := by
  have deeper : ∀ tree ∈ suite.map ((level + 1, ·) : Statement → Nat × Statement),
      decide (level < tree.1) = true := by
    intro tree ht
    obtain ⟨inner, -, rfl⟩ := List.mem_map.mp ht
    exact decide_eq_true (Nat.lt_succ_self level)
  have htake : rest.takeWhile (fun tree => decide (level < tree.1)) = [] := by
    cases rest with
    | nil => rfl
    | cons first others =>
      have hle : first.1 ≤ level := h first rfl
      simp [Nat.not_lt.mpr hle]
  have hdrop : rest.dropWhile (fun tree => decide (level < tree.1)) = rest := by
    cases rest with
    | nil => rfl
    | cons first others =>
      have hle : first.1 ≤ level := h first rfl
      simp [Nat.not_lt.mpr hle]
  simp only [adopt]
  rw [List.takeWhile_append_of_pos deeper, List.dropWhile_append_of_pos deeper, htake, hdrop]
  simp [Function.comp_def]

-- The induction is on the statements; what follows them must not be deeper, or the last of them would
-- take it as its own.
mutual

theorem nestAt_lines_append :
    ∀ (tree : Statement) (level : Nat) (rest : List Line), tree.Solid → StartsBy level (nestAt rest) →
      nestAt (tree.lines level ++ rest) = (level, tree) :: nestAt rest
  | .node text suite, level, rest, h, hr => by
    have hblank : (⟨text, level⟩ : Line).isBlank = false := by simpa [Line.isBlank] using h.1
    show nestAt (⟨text, level⟩ :: (linesAll (level + 1) suite ++ rest)) = _
    rw [nestAt, hblank,
      nestAt_linesAll_append suite (level + 1) rest h.2 (hr.mono (Nat.le_succ level))]
    exact adopt_suite text level suite hr

/-- **Written statements read back**, in front of anything that is not deeper than they are. -/
theorem nestAt_linesAll_append :
    ∀ (trees : List Statement) (level : Nat) (rest : List Line), SolidAll trees →
      StartsBy level (nestAt rest) →
      nestAt (linesAll level trees ++ rest) = trees.map (level, ·) ++ nestAt rest
  | [], _, _, _, _ => rfl
  | tree :: others, level, rest, h, hr => by
    have ih := nestAt_linesAll_append others level rest h.2 hr
    have hstart : StartsBy level (nestAt (linesAll level others ++ rest)) := by
      rw [ih]
      exact startsBy_map_append level others hr
    rw [Statement.linesAll_cons, List.append_assoc,
      nestAt_lines_append tree level (linesAll level others ++ rest) h.1 hstart, ih]
    rfl

end

/-- **Written statements read back.** -/
theorem nest_linesAll (level : Nat) {trees : List Statement} (h : SolidAll trees) :
    nest (linesAll level trees) = trees := by
  have hnil : StartsBy level (nestAt []) := fun first hf => absurd hf (by simp [nestAt])
  have hread := nestAt_linesAll_append trees level [] h hnil
  rw [List.append_nil] at hread
  simp [nest, hread, nestAt, Function.comp_def]

/-- Blank lines say nothing. -/
theorem nestAt_filter (lines : List Line) :
    nestAt (lines.filter (!·.isBlank)) = nestAt lines := by
  induction lines with
  | nil => rfl
  | cons line rest ih =>
    cases hb : line.isBlank with
    | false => simp [nestAt, hb, ih]
    | true => simp [nestAt, hb, ih]

/-- Written statements have no blank lines to leave out. -/
theorem filter_linesAll (level : Nat) {trees : List Statement} (h : SolidAll trees) :
    (linesAll level trees).filter (!·.isBlank) = linesAll level trees := by
  refine List.filter_eq_self.mpr ?_
  intro line hl
  simp [Statement.not_isBlank_of_mem_linesAll trees level h line hl]

/-- Lines whose non-blank ones were written from statements read back as these. -/
theorem nest_of_filter {lines : List Line} (level : Nat) {trees : List Statement} (h : SolidAll trees)
    (hl : lines.filter (!·.isBlank) = linesAll level trees) : nest lines = trees := by
  rw [nest, ← nestAt_filter, hl]
  exact nest_linesAll level h

/-! ## Moving -/

-- It is the sum of a line's own level and the new one that has to be a machine word; `first` is taken off later.
mutual

theorem map_shift_lines (first level : Nat) :
    ∀ (tree : Statement) (depth : Nat), tree.Solid → first + depth + level + tree.height ≤ UInt64.size →
      (tree.lines (first + depth)).map (Line.shift first level) = tree.lines (level + depth)
  | .node text suite, depth, h, hfits => by
    rw [Statement.height_node] at hfits
    have hblank : (⟨text, first + depth⟩ : Line).isBlank = false := by
      simpa [Line.isBlank] using h.1
    have hlevel : word (first + depth + level) - first = level + depth := by
      rw [word_of_lt (by omega)]
      omega
    show Line.shift first level ⟨text, first + depth⟩
        :: (linesAll (first + (depth + 1)) suite).map (Line.shift first level) = _
    rw [map_shift_linesAll first level suite (depth + 1) h.2 (by omega)]
    simp only [Line.shift, hblank, Bool.false_eq_true, if_false, hlevel]
    rfl

/-- Shifting written statements shifts each of them by the same distance. -/
theorem map_shift_linesAll (first level : Nat) :
    ∀ (trees : List Statement) (depth : Nat), SolidAll trees →
      first + depth + level + heightAll trees ≤ UInt64.size →
      (linesAll (first + depth) trees).map (Line.shift first level)
        = linesAll (level + depth) trees
  | [], _, _, _ => rfl
  | tree :: rest, depth, h, hfits => by
    rw [Statement.heightAll_cons] at hfits
    rw [Statement.linesAll_cons, List.map_append, map_shift_lines first level tree depth h.1 (by omega),
      map_shift_linesAll first level rest depth h.2 (by omega)]
    rfl

end

theorem firstLevel?_cons {text : String} (h : text ≠ "") (level : Nat) (rest : List Line) :
    firstLevel? (⟨text, level⟩ :: rest) = some level := by
  have hblank : (⟨text, level⟩ : Line).isBlank = false := by simpa [Line.isBlank] using h
  simp [firstLevel?, hblank]

theorem firstLevel?_linesAll (level : Nat) {tree : Statement} (rest : List Statement) (h : tree.Solid) :
    firstLevel? (linesAll level (tree :: rest)) = some level := by
  obtain ⟨text, suite⟩ := tree
  exact firstLevel?_cons h.1 level _

/-- **Moving written statements is writing them at the other level**, if no sum of levels is beyond a machine
word. -/
theorem moveTo_linesAll (first level : Nat) {trees : List Statement} (h : SolidAll trees)
    (hfits : first + level + heightAll trees ≤ UInt64.size) :
    moveTo level (linesAll first trees) = linesAll level trees := by
  cases trees with
  | nil => rfl
  | cons tree rest =>
    rw [moveTo, firstLevel?_linesAll first rest h.1]
    exact map_shift_linesAll first level (tree :: rest) 0 h hfits

end ClassCli.Code
