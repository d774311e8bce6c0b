import ClassCli.Proofs.Code.Indentation

/-!
# Characters that Python does not read

A line of a program holds no line end, and no program holds the null character at all. Values are written
in one line, but a null character in a string is written as it is.

* **`LegalLine`** — a text that can be a line of a program.
* **`noNull_literal`** — a value holds the null character exactly if one of its strings does.
* **`legalLine_callArgs`** — the arguments of a call can be in a line exactly if their names can.
-/

namespace ClassCli

namespace Literal

mutual

/-- The strings in a value, those in lists included. -/
def strings : Literal → List String
  | .str s => [s]
  | .list items => stringsAll items
  | _ => []

/-- The strings in values. -/
def stringsAll : List Literal → List String
  | [] => []
  | value :: rest => strings value ++ stringsAll rest

end

end Literal

namespace Code

open Interface (Argument)
open Statement (linesAll)

/-! ## Texts without the null character -/

/-- A text without the null character. -/
def NoNull (text : String) : Prop := '\x00' ∉ text.toList

instance (text : String) : Decidable (NoNull text) := inferInstanceAs (Decidable (_ ∉ _))

@[simp] theorem noNull_append {front back : String} :
    NoNull (front ++ back) ↔ NoNull front ∧ NoNull back := by
  simp [NoNull]

theorem NoNull.of_class {text : String} {test : Char → Bool} (h : ∀ c ∈ text.toList, test c = true)
    (hnull : test '\x00' = false) : NoNull text := by
  intro hmem
  have htest := h _ hmem
  rw [hnull] at htest
  cases htest

theorem NoNull.of_identifier {name : String} (h : Text.isIdentifier name.toList = true) : NoNull name :=
  NoNull.of_class (isWord_of_isIdentifier h).2 (by decide)

/-- A character that is not in the separator is in none of the pieces exactly if it is not in the joined
text. -/
theorem not_mem_joinStrings_iff {c : Char} {separator : String} (hseparator : c ∉ separator.toList)
    {pieces : List String} :
    c ∉ (Text.joinStrings separator pieces).toList ↔ ∀ piece ∈ pieces, c ∉ piece.toList := by
  rw [Text.joinStrings, String.toList_ofList, Text.mem_join_iff hseparator]
  simp

theorem noNull_joinStrings {separator : String} (hseparator : NoNull separator) {pieces : List String} :
    NoNull (Text.joinStrings separator pieces) ↔ ∀ piece ∈ pieces, NoNull piece :=
  not_mem_joinStrings_iff hseparator

/-- A null character is written as it is, and no other character is written with one. -/
theorem null_mem_escaped {c : Char} : '\x00' ∈ escaped c ↔ c = '\x00' := by
  by_cases hc : c ∈ escapes
  · have hwritten : ∀ a ∈ escapes, '\x00' ∉ escaped a ∧ a ≠ '\x00' := by
      rw [forall_escapes]
      decide
    simp [hwritten c hc]
  · rw [escaped_of_not_mem hc, List.mem_singleton]
    exact eq_comm

@[simp] theorem noNull_quote {text : String} : NoNull (quote text) ↔ NoNull text := by
  rw [NoNull, quote, String.toList_ofList]
  simp [NoNull, List.mem_flatMap, null_mem_escaped]

theorem noNull_number (x : Decimal.Binary64) : NoNull (number x) := by
  unfold number
  split
  · decide
  split
  · split
    · decide
    · decide
  · exact NoNull.of_class (Numeral.floatText x) (by decide)

mutual

/-- **A value is written with a null character** exactly if one of its strings holds one. -/
theorem noNull_literal : ∀ value : Literal,
    NoNull (literal value) ↔ ∀ text ∈ value.strings, NoNull text
  | .none | .bool true | .bool false => by simp +decide
  | .int i => by
    have hnumber : NoNull (Literal.integerText i.toInt) :=
      NoNull.of_class (Numeral.integerText i.toInt) (by decide)
    simp [literal, Literal.strings, hnumber]
  | .float x => by simp [literal, Literal.strings, noNull_number]
  | .str s => by simp [literal, Literal.strings]
  | .list items => by
    have hseparator : NoNull ", " := by decide
    rw [literal, Literal.strings, noNull_append, noNull_append, noNull_joinStrings hseparator,
      noNull_literals]
    simp +decide

/-- The same for values. -/
theorem noNull_literals : ∀ values : List Literal,
    (∀ text ∈ literals values, NoNull text) ↔ ∀ text ∈ Literal.stringsAll values, NoNull text
  | [] => by simp [literals, Literal.stringsAll]
  | value :: rest => by
    rw [literals, Literal.stringsAll, List.forall_mem_cons, List.forall_mem_append, noNull_literal,
      noNull_literals]

end

/-! ## Lines -/

/-- A text that can be a line of a program: it has neither line ends nor null characters. -/
def LegalLine (text : String) : Prop := OneLine text ∧ NoNull text

instance (text : String) : Decidable (LegalLine text) := inferInstanceAs (Decidable (_ ∧ _))

@[simp] theorem legalLine_append {front back : String} :
    LegalLine (front ++ back) ↔ LegalLine front ∧ LegalLine back := by
  rw [LegalLine, LegalLine, LegalLine, oneLine_append, noNull_append]
  exact and_and_and_comm

theorem LegalLine.of_identifier {name : String} (h : Text.isIdentifier name.toList = true) :
    LegalLine name :=
  ⟨OneLine.of_identifier h, NoNull.of_identifier h⟩

@[simp] theorem legalLine_quote {text : String} : LegalLine (quote text) ↔ NoNull text := by
  rw [LegalLine, noNull_quote]
  exact and_iff_right (oneLine_quote text)

theorem legalLine_literal {value : Literal} :
    LegalLine (literal value) ↔ ∀ text ∈ value.strings, NoNull text := by
  rw [LegalLine, noNull_literal]
  exact and_iff_right (oneLine_literal value)

theorem legalLine_joinStrings {separator : String} (hseparator : LegalLine separator)
    {pieces : List String} :
    LegalLine (Text.joinStrings separator pieces) ↔ ∀ piece ∈ pieces, LegalLine piece := by
  have honeLine : OneLine (Text.joinStrings separator pieces) ↔ ∀ piece ∈ pieces, OneLine piece := by
    constructor
    · intro h piece hpiece c hc
      exact (not_mem_joinStrings_iff (hseparator.1 c hc)).mp (h c hc) piece hpiece
    · exact OneLine.joinStrings hseparator.1
  rw [LegalLine, honeLine, noNull_joinStrings hseparator.2]
  exact forall₂_and.symm

/-- **The arguments of a call** can be in a line exactly if their names can. -/
theorem legalLine_callArgs {args : List Argument} :
    LegalLine (callArgs args) ↔ ∀ arg ∈ args, LegalLine arg.destination := by
  have hseparator : LegalLine ", " := by decide
  have hopen : LegalLine "=args['" := by decide
  have hclose : LegalLine "']" := by decide
  rw [callArgs, legalLine_joinStrings hseparator, List.forall_mem_map]
  simp [hopen, hclose]

/-! ## Written statements -/

theorem forall_functionLines {P : String → Prop} {head : String} {body : List String} :
    (∀ line ∈ functionLines head body, P line.text) ↔ P head ∧ ∀ text ∈ body, P text := by
  rw [functionLines, List.forall_mem_cons, List.forall_mem_map]

theorem forall_linesAll {P : String → Prop} {level : Nat} {trees : List Statement} :
    (∀ line ∈ linesAll level trees, P line.text) ↔ ∀ tree ∈ trees, ∀ line ∈ tree.lines level, P line.text := by
  induction trees with
  | nil => simp
  | cons tree rest ih => rw [Statement.linesAll_cons, List.forall_mem_append, List.forall_mem_cons, ih]

theorem forall_lines_node {P : String → Prop} {level : Nat} {text : String} {suite : List Statement} :
    (∀ line ∈ (Statement.node text suite).lines level, P line.text)
      ↔ P text ∧ ∀ tree ∈ suite, ∀ line ∈ tree.lines (level + 1), P line.text := by
  rw [Statement.lines_node, List.forall_mem_cons, forall_linesAll]

theorem forall_lines_leaf {P : String → Prop} {level : Nat} {text : String} :
    (∀ line ∈ (Statement.leaf text).lines level, P line.text) ↔ P text := by
  simp

end Code

end ClassCli
