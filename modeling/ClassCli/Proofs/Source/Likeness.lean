import Mathlib.Data.List.Forall2
import ClassCli.Source.Reading

/-!
# Tokens that are read alike

Two lists of tokens are alike if they differ only in the texts of strings and gaps, and there only as a
given likeness of texts allows. A reader respects a likeness if on alike tokens it fails alike or gives
alike results with alike tokens left; readers are put together from readers, so that this is shown of
each of them by way of its parts.

* **`Likeness`** — which texts are alike, and which words may stand among the tokens.
* **`Tokens.Like`** — alike lists of tokens.
* **`Respects`** — readers that read alike tokens alike.
* **`Respects.bind`** — one reader after the other.
* **`spelled_like`** — the texts of what was read are alike.
-/

namespace ClassCli.Source

/-! ## Alike tokens -/

/-- A notion of alike texts that goes on when texts are put together, a property of words, and a
property of lists of tokens that their tails have too. -/
structure Likeness where
  Text : String → String → Prop
  Word : String → Prop
  Within : Tokens → Prop
  empty : Text "" ""
  append : ∀ {a a' b b' : String}, Text a a' → Text b b' → Text (a ++ b) (a' ++ b')
  tail : ∀ {t : Token} {ts : Tokens}, Within (t :: ts) → Within ts

/-- What makes a lexeme like itself: a word has to have the property asked for, and texts that may
differ are compared on their own. -/
def Lexeme.IsSettled (L : Likeness) : Lexeme → Prop
  | .word text => L.Word text
  | .string _ | .formatText _ | .stray _ => False
  | _ => True

/-- Alike lexemes: strings and what stands in them may have different texts. -/
inductive Lexeme.Like (L : Likeness) : Lexeme → Lexeme → Prop
  | same (l : Lexeme) : l.IsSettled L → L.Text l.text l.text → Like L l l
  | string {a b : String} : L.Text a b → Like L (.string a) (.string b)
  | formatText {a b : String} : L.Text a b → Like L (.formatText a) (.formatText b)
  | stray {a b : String} : L.Text a b → Like L (.stray a) (.stray b)

/-- Alike tokens. -/
structure Token.Like (L : Likeness) (t t' : Token) : Prop where
  lexeme : Lexeme.Like L t.lexeme t'.lexeme
  gap : L.Text t.gap t'.gap
  joins : List.Forall₂ L.Text t.joins t'.joins
  line : t.line = t'.line

/-- Alike lists of tokens. -/
structure Tokens.Like (L : Likeness) (ts ts' : Tokens) : Prop where
  pairs : List.Forall₂ (Token.Like L) ts ts'
  within : L.Within ts

variable {L : Likeness} {ts ts' rest rest' : Tokens}

theorem Lexeme.Like.text {l l' : Lexeme} (h : Lexeme.Like L l l') : L.Text l.text l'.text := by
  cases h <;> assumption

theorem writtenAll_like (h : List.Forall₂ (Token.Like L) ts ts') :
    L.Text (Token.writtenAll ts) (Token.writtenAll ts') := by
  induction h with
  | nil => exact L.empty
  | cons ht _ ih =>
    simp only [Token.writtenAll, List.map_cons, String.join_cons]
    exact L.append (L.append ht.gap ht.lexeme.text) ih

theorem spelling_like (h : List.Forall₂ (Token.Like L) ts ts') :
    L.Text (Token.spelling ts) (Token.spelling ts') := by
  cases h with
  | nil => exact L.empty
  | cons ht h => exact L.append ht.lexeme.text (writtenAll_like h)

namespace Tokens.Like

theorem length_eq (h : Tokens.Like L ts ts') : ts.length = ts'.length := h.pairs.length_eq

theorem drop (h : Tokens.Like L ts ts') (n : Nat) : Tokens.Like L (ts.drop n) (ts'.drop n) := by
  refine ⟨List.forall₂_drop n h.pairs, ?_⟩
  have hwithin := h.within
  clear h
  induction n generalizing ts with
  | zero => exact hwithin
  | succ n ih =>
    cases ts with
    | nil => exact hwithin
    | cons t ts => exact ih (L.tail hwithin)

theorem lexeme? (h : Tokens.Like L ts ts') : Lexeme.Like L (lexeme? ts) (Source.lexeme? ts') := by
  cases h.pairs with
  | nil => exact .same .finish trivial L.empty
  | cons ht _ => exact ht.lexeme

end Tokens.Like

/-- The source text of what was read is alike, since what is left has the same length. -/
theorem spelled_like (h : Tokens.Like L ts ts') (hrest : Tokens.Like L rest rest') :
    L.Text (Token.spelled ts rest) (Token.spelled ts' rest') := by
  unfold Token.spelled Token.consumed
  rw [h.length_eq, hrest.length_eq]
  exact spelling_like (List.forall₂_take _ h.pairs)

namespace Tokens.Like

theorem atSymbol (h : Tokens.Like L ts ts') (mark : String) :
    atSymbol mark ts = Source.atSymbol mark ts' := by
  have hl := h.lexeme?
  unfold Source.atSymbol
  generalize Source.lexeme? ts = l, Source.lexeme? ts' = l' at hl ⊢
  cases hl <;> rfl

theorem atWord (h : Tokens.Like L ts ts') (text : String) : atWord text ts = Source.atWord text ts' := by
  have hl := h.lexeme?
  unfold Source.atWord
  generalize Source.lexeme? ts = l, Source.lexeme? ts' = l' at hl ⊢
  cases hl <;> rfl

theorem atFinish (h : Tokens.Like L ts ts') :
    (Source.lexeme? ts != .finish) = (Source.lexeme? ts' != .finish) := by
  have hl := h.lexeme?
  generalize Source.lexeme? ts = l, Source.lexeme? ts' = l' at hl ⊢
  cases hl <;> rfl

theorem atStatementEnd (h : Tokens.Like L ts ts') : atStatementEnd ts = Source.atStatementEnd ts' := by
  have hl := h.lexeme?
  unfold Source.atStatementEnd
  generalize Source.lexeme? ts = l, Source.lexeme? ts' = l' at hl ⊢
  cases hl <;> rfl

theorem atExpressionEnd (h : Tokens.Like L ts ts') :
    atExpressionEnd ts = Source.atExpressionEnd ts' := by
  have hl := h.lexeme?
  unfold Source.atExpressionEnd
  generalize Source.lexeme? ts = l, Source.lexeme? ts' = l' at hl ⊢
  cases hl <;> rfl

/-- Alike tokens open with a line end on both sides or on neither. -/
inductive Ahead (L : Likeness) : Tokens → Tokens → Prop
  | lineBreak {indent line line' : Nat} {gap gap' : String} {joins joins' : List String}
      {rest rest' : Tokens} : Tokens.Like L rest rest' →
      Ahead L (⟨.lineBreak indent, gap, joins, line⟩ :: rest)
        (⟨.lineBreak indent, gap', joins', line'⟩ :: rest')
  | other {ts ts' : Tokens} :
      (∀ indent gap joins line rest, ts ≠ ⟨.lineBreak indent, gap, joins, line⟩ :: rest) →
      (∀ indent gap joins line rest, ts' ≠ ⟨.lineBreak indent, gap, joins, line⟩ :: rest) →
      Ahead L ts ts'

theorem ahead (h : Tokens.Like L ts ts') : Ahead L ts ts' := by
  have hrest := h.drop 1
  cases h.pairs with
  | nil => exact .other (by simp) (by simp)
  | @cons t t' _ _ ht _ =>
    obtain ⟨l, gap, joins, line⟩ := t
    obtain ⟨l', gap', joins', line'⟩ := t'
    cases ht.lexeme with
    | same l hs =>
      cases l with
      | lineBreak indent => exact .lineBreak hrest
      | _ => exact .other (by simp) (by simp)
    | _ => exact .other (by simp) (by simp)

theorem skipBreak (h : Tokens.Like L ts ts') (level : Nat) :
    Tokens.Like L (skipBreak level ts) (Source.skipBreak level ts') := by
  cases h.ahead with
  | lineBreak hrest =>
    simp only [Source.skipBreak]
    split
    · exact hrest
    · exact h
  | other hts hts' =>
    simp only [Source.skipBreak]
    exact h

theorem ite (h : Tokens.Like L ts ts') (hrest : Tokens.Like L rest rest') {c c' : Bool} (hc : c = c') :
    Tokens.Like L (if c then ts else rest) (if c' then ts' else rest') := by
  subst hc
  cases c
  · exact hrest
  · exact h

theorem start (h : Tokens.Like L ts ts') (p : Place) : Tokens.Like L (p.start ts) (p.start ts') :=
  h.skipBreak p.level

theorem next (h : Tokens.Like L ts ts') (p : Place) : Tokens.Like L (p.next ts) (p.next ts') := by
  unfold Place.next
  split
  · exact h
  · exact h.skipBreak p.level

end Tokens.Like

/-! ## Readers -/

/-- Two readings agree if both fail, or both give related results and leave alike tokens. -/
inductive Agree (L : Likeness) {α β ε : Type} (X : α → β → Prop) :
    Except ε (α × Tokens) → Except ε (β × Tokens) → Prop
  | ok {x y} {rest rest' : Tokens} :
      X x y → Tokens.Like L rest rest' → Agree L X (.ok (x, rest)) (.ok (y, rest'))
  | error {e e' : ε} : Agree L X (.error e) (.error e')

/-- A reader that reads alike tokens alike. -/
def Respects (L : Likeness) {α ε : Type} (X : α → α → Prop)
    (r : Tokens → Except ε (α × Tokens)) : Prop :=
  ∀ ⦃ts ts' : Tokens⦄, Tokens.Like L ts ts' → Agree L X (r ts) (r ts')

namespace Agree

variable {α β ε : Type} {X : α → α → Prop} {Y : β → β → Prop}

/-- One reader after the other, where what the first one gave is known. -/
theorem bind_of_eq {m m' : Except ε (α × Tokens)} {f f' : α × Tokens → Except ε (β × Tokens)}
    (hm : Agree L X m m')
    (hf : ∀ {x y rest rest'}, m = .ok (x, rest) → X x y → Tokens.Like L rest rest' →
      Agree L Y (f (x, rest)) (f' (y, rest'))) :
    Agree L Y (m >>= f) (m' >>= f') := by
  cases hm with
  | ok hx hrest => exact hf rfl hx hrest
  | error => exact .error

theorem bind {m m' : Except ε (α × Tokens)} {f f' : α × Tokens → Except ε (β × Tokens)}
    (hm : Agree L X m m')
    (hf : ∀ {x y rest rest'}, X x y → Tokens.Like L rest rest' →
      Agree L Y (f (x, rest)) (f' (y, rest'))) :
    Agree L Y (m >>= f) (m' >>= f') :=
  hm.bind_of_eq fun _ hx hrest => hf hx hrest

theorem ite {a a' b b' : Except ε (α × Tokens)} {c c' : Bool} (hc : c = c')
    (ha : Agree L X a a') (hb : Agree L X b b') :
    Agree L X (if c then a else b) (if c' then a' else b') := by
  subst hc
  cases c
  · exact hb
  · exact ha

end Agree

/-- One or more items with commas between them. -/
theorem respects_commaList {α : Type} {X : α → α → Prop}
    {item : Tokens → Except Tokens (α × Tokens)} {ends : Tokens → Bool} {after : Tokens → Tokens}
    (hitem : Respects L X item)
    (hends : ∀ {ts ts'}, Tokens.Like L ts ts' → ends ts = ends ts')
    (hafter : ∀ {ts ts'}, Tokens.Like L ts ts' → Tokens.Like L (after ts) (after ts')) (fuel : Nat) :
    Respects L (List.Forall₂ X) (commaList item ends after fuel) := by
  induction fuel with
  | zero => exact fun _ _ _ => .error
  | succ fuel ih =>
    intro ts ts' h
    refine .bind (hitem h) fun hx hrest => ?_
    refine .ite ((hafter hrest).atSymbol ",") ?_ (.ok (.cons hx .nil) hrest)
    have hnext := (hafter hrest).drop 1
    refine .ite (hends (hafter hnext)) (.ok (.cons hx .nil) hnext) ?_
    exact .bind (ih hnext) fun hxs hrest => .ok (.cons hx hxs) hrest

theorem respects_symbol (mark : String) : Respects L (fun _ _ => True) (symbol mark) := by
  intro ts ts' h
  exact .ite (h.atSymbol mark) (.ok trivial (h.drop 1)) .error

theorem respects_word (text : String) : Respects L (fun _ _ => True) (word text) := by
  intro ts ts' h
  exact .ite (h.atWord text) (.ok trivial (h.drop 1)) .error

end ClassCli.Source
