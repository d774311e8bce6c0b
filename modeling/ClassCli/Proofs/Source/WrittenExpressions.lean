import ClassCli.Proofs.Source.WrittenTokens
import ClassCli.Source.ExprReading

/-!
# Expressions of written code

Numbers, quoted texts, names, lists and calls are read as what they are if a bracket, a comma or the end of the line
follows: no operator, no connecting word and nothing in brackets goes on with them.

* **`Reads`**, **`ReadsItem`** — lexemes that are read as an expression with a property.
* **`reads_minus`**, **`reads_list`**, **`reads_call`**, **`reads_methodCall`** — what is put together.
* **`Written`** — a text that stands for such an expression, and **`Written.expression`** — a line with such a text.
-/

namespace ClassCli.Source

open Code (quote)
open Decimal (WrittenDecimal)
open Decimal.Shortest (digitsOf)

variable {p : Place} {ts rest : Tokens} {r : Readers} {x : Expr} {P : Expr → Prop} {ls : List Lexeme} {l : Lexeme}

/-! ## Behind an expression -/

/-- The lexemes that end an expression. -/
def closes : Lexeme → Bool
  | .symbol mark => mark ∈ [",", ")", "]"]
  | .lineBreak _ | .finish => true
  | _ => false

/-- What is seen after an operand ends the expression. -/
def Behind (p : Place) (rest : Tokens) : Prop := closes (lexeme? (p.next rest)) = true

theorem Behind.ne (h : Behind p rest) (hl : closes l = false) : lexeme? (p.next rest) ≠ l := by
  intro heq
  rw [Behind, heq, hl] at h
  cases h

theorem skipBreak_of_ne (level : Nat) (h : ∀ indent, lexeme? ts ≠ .lineBreak indent) : skipBreak level ts = ts := by
  unfold skipBreak
  split
  · rename_i indent _ _ _ _
    exact absurd rfl (h indent)
  · rfl

/-- The next token ends the expression, too. -/
theorem Behind.ahead (h : Behind p rest) : closes (lexeme? rest) = true := by
  by_cases hbreak : ∃ indent, lexeme? rest = .lineBreak indent
  · obtain ⟨indent, hindent⟩ := hbreak
    rw [hindent]
    rfl
  · have hskip := skipBreak_of_ne p.level fun indent heq => hbreak ⟨indent, heq⟩
    unfold Behind Place.next at h
    rwa [hskip, ite_self] at h

/-- No line ends in front of a lexeme of its own. -/
theorem skipBreak_cons {t : Token} (hl : ∀ indent, t.lexeme ≠ .lineBreak indent) (level : Nat) (rest : Tokens) :
    skipBreak level (t :: rest) = t :: rest := skipBreak_of_ne level hl

theorem next_of_symbol {t : Token} {mark : String} (ht : t.lexeme = .symbol mark) (p : Place) (rest : Tokens) :
    p.next (t :: rest) = t :: rest := by
  rw [Place.next, skipBreak_cons (by simp [ht]), ite_self]

/-- A comma or a closing bracket ends an expression anywhere. -/
theorem behind_symbol {t : Token} {mark : String} (ht : t.lexeme = .symbol mark) (hmark : mark ∈ [",", ")", "]"])
    (p : Place) (rest : Tokens) : Behind p (t :: rest) := by
  rw [Behind, next_of_symbol ht, lexeme?, ht]
  exact decide_eq_true hmark

/-! ## At an operand -/

/-- The words that open something other than an operand. -/
def openingWords : List String := ["not", "lambda", "await", "yield"]

/-- The signs that stand in front of an operand. -/
def signs : List String := ["+", "-"]

/-- The lexemes that open an operand or stand in front of one. -/
def opensOperand : Lexeme → Bool
  | .word text => text ∉ openingWords
  | .integer _ | .float _ | .string _ => true
  | .symbol mark => mark ∈ ["+", "-", "(", "["]
  | _ => false

/-- An operand comes next, and not as the value of a name. -/
structure Opens (ts : Tokens) : Prop where
  first : opensOperand (lexeme? ts) = true
  unnamed : ∀ text, lexeme? ts = .word text → ∀ mark ∈ ["=", ":="], atSymbol mark (ts.drop 1) = false

theorem Opens.ne (h : Opens ts) (hl : opensOperand l = false) : lexeme? ts ≠ l := by
  intro heq
  have hfirst := h.first
  rw [heq, hl] at hfirst
  cases hfirst

theorem Opens.start (h : Opens ts) (p : Place) : p.start ts = ts :=
  skipBreak_of_ne p.level fun _ => h.ne rfl

/-! ## Nothing goes on with an expression -/

theorem trailers_behind (h : Behind p rest) (origin : Tokens) (fuel : Nat) (x : Expr) :
    r.trailers p origin (fuel + 1) x rest = .ok (x, rest) := by
  unfold Readers.trailers
  split
  · exact absurd ‹_› (h.ne rfl)
  · exact absurd ‹_› (h.ne rfl)
  · exact absurd ‹_› (h.ne rfl)
  · rfl

theorem afterOperator_of_closes (h : closes (lexeme? ts) = true) : Readers.afterOperator ts = none := by
  unfold Readers.afterOperator
  split
  · rename_i mark heq
    rw [heq] at h
    have hmarks : ∀ mark ∈ [",", ")", "]"], mark ∉ Readers.operatorSymbols := by decide
    rw [if_neg (hmarks mark (of_decide_eq_true h))]
  · rename_i heq
    rw [heq] at h
    cases h
  · rename_i heq
    rw [heq] at h
    cases h
  · rename_i heq
    rw [heq] at h
    cases h
  · rfl

theorem chain_behind (h : Behind p rest) (fuel : Nat) : r.chain p (fuel + 1) rest = .ok ((), rest) := by
  unfold Readers.chain
  rw [afterOperator_of_closes h]

theorem connected_behind (h : Behind p rest) (fuel : Nat) : r.connected p (fuel + 1) rest = .ok ((), rest) := by
  unfold Readers.connected
  dsimp only
  split
  · exact absurd ‹_› (h.ne rfl)
  · exact absurd ‹_› (h.ne rfl)
  · exact absurd ‹_› (h.ne rfl)
  · exact absurd ‹_› (h.ne rfl)
  · rfl

/-! ## Operands as expressions -/

theorem postfixed_of_atom (hatom : r.atom p ts = .ok (x, rest)) (h : Behind p rest) :
    r.postfixed p ts = .ok (x, rest) := by
  unfold Readers.postfixed
  rw [hatom]
  exact trailers_behind h ts ts.length x

theorem primary_of_postfixed (hts : Opens ts) (hsign : ∀ mark ∈ signs, lexeme? ts ≠ .symbol mark)
    (hread : r.postfixed p ts = .ok (x, rest)) (fuel : Nat) : r.primary p (fuel + 1) ts = .ok (x, rest) := by
  unfold Readers.primary
  rw [hts.start p]
  dsimp only
  split
  · exact absurd ‹_› (hsign "+" (by decide))
  · exact absurd ‹_› (hsign "-" (by decide))
  · exact absurd ‹_› (hts.ne rfl)
  · exact absurd ‹_› (hts.ne rfl)
  · exact absurd ‹_› (hts.ne rfl)
  · exact hread

theorem part_of_primary (hts : Opens ts) (hread : r.primary p (ts.length + 1) ts = .ok (x, rest)) (h : Behind p rest)
    (fuel : Nat) : r.part p (fuel + 1) ts = .ok (x, rest) := by
  have hchain := chain_behind (r := r) h ts.length
  unfold Readers.part
  rw [hts.start p]
  dsimp only
  split
  · exact absurd ‹_› (hts.ne rfl)
  · exact absurd ‹_› (hts.ne rfl)
  · split
    · rename_i text heq
      rw [hts.unnamed text heq ":=" (by decide)]
      simp only [hread, hchain, bind, Except.bind, Readers.whole, if_true, Bool.false_eq_true, if_false]
    · simp only [hread, hchain, bind, Except.bind, Readers.whole, if_true, Bool.false_eq_true, if_false]

/-- **An operand is an expression** if nothing goes on with it. -/
theorem complete_of_primary (hts : Opens ts) (hread : r.primary p (ts.length + 1) ts = .ok (x, rest))
    (h : Behind p rest) : r.complete p ts = .ok (x, rest) := by
  have hpart := part_of_primary hts hread h ts.length
  have hconnected := connected_behind (r := r) h ts.length
  unfold Readers.complete
  rw [hts.start p]
  dsimp only
  simp only [hpart, hconnected, bind, Except.bind, Readers.whole, if_true]

/-! ## Lexemes that are read -/

/-- Lexemes of an operand, which is read with a property if nothing goes on with it. -/
structure Reads (ls : List Lexeme) (P : Expr → Prop) : Prop where
  opens : ∀ {ts rest}, Spells ls ts → closes (lexeme? rest) = true → Opens (ts ++ rest)
  reads : ∀ {d fuel p ts rest}, Spells ls ts → Behind p rest → ls.length ≤ d + 1 → ls.length ≤ fuel →
    ∃ x, (readers d).primary p fuel (ts ++ rest) = .ok (x, rest) ∧ P x

/-- Lexemes of an item between brackets, which is read with a property. -/
structure ReadsItem (read : Readers → Place → Tokens → Except Tokens (Expr × Tokens)) (ls : List Lexeme)
    (P : Expr → Prop) : Prop where
  opens : ∀ {ts rest}, Spells ls ts → closes (lexeme? rest) = true → closes (lexeme? (ts ++ rest)) = false
  reads : ∀ {d p ts rest}, Spells ls ts → Behind p rest → ls.length ≤ d →
    ∃ x, read (readers d) p (ts ++ rest) = .ok (x, rest) ∧ P x

namespace Reads

theorem ne_nil (h : Reads ls P) : ls ≠ [] := by
  rintro rfl
  have hempty : closes (lexeme? []) = true := rfl
  cases (h.opens .nil hempty).first

/-- **An operand is read as an expression** by readers that are nested deep enough. -/
theorem expression {d : Nat} (h : Reads ls P) (hts : Spells ls ts) (hrest : Behind p rest) (hd : ls.length ≤ d) :
    ∃ x, (readers d).expression p (ts ++ rest) = .ok (x, rest) ∧ P x := by
  have hpos := List.length_pos_iff.mpr h.ne_nil
  obtain ⟨d, rfl⟩ : ∃ n, d = n + 1 := ⟨d - 1, by omega⟩
  have hlength := hts.length_eq
  have hfuel : ls.length ≤ (ts ++ rest).length + 1 := by
    rw [List.length_append]
    omega
  obtain ⟨x, hread, hx⟩ := h.reads hts hrest hd hfuel
  exact ⟨x, complete_of_primary (h.opens hts hrest.ahead) hread hrest, hx⟩

end Reads

theorem not_closes_of_opensOperand (h : opensOperand l = true) : closes l = false := by
  cases l with
  | symbol mark =>
    have hmarks : ∀ mark ∈ ["+", "-", "(", "["], mark ∉ [",", ")", "]"] := by decide
    exact decide_eq_false (hmarks mark (of_decide_eq_true h))
  | lineBreak => cases h
  | finish => cases h
  | _ => rfl

theorem Opens.not_closes (h : Opens ts) : closes (lexeme? ts) = false := not_closes_of_opensOperand h.first

/-- An operand is an item of a list. -/
theorem Reads.element (h : Reads ls P) : ReadsItem (fun r => element r.expression) ls P where
  opens hts hrest := (h.opens hts hrest).not_closes
  reads := by
    intro d p ts rest hts hrest hd
    have hopens := h.opens hts hrest.ahead
    obtain ⟨x, hread, hx⟩ := h.expression hts hrest hd
    refine ⟨x, ?_, hx⟩
    have hstar : atSymbol "*" (ts ++ rest) = false := beq_eq_false_iff_ne.mpr (hopens.ne rfl)
    have hyield : atWord "yield" (ts ++ rest) = false := beq_eq_false_iff_ne.mpr (hopens.ne rfl)
    show Source.element (readers d).expression p (ts ++ rest) = _
    rw [Source.element, hstar, hyield]
    exact hread

/-- An operand is an argument of a call. -/
theorem Reads.argument (h : Reads ls P) : ReadsItem Readers.argument ls P where
  opens hts hrest := (h.opens hts hrest).not_closes
  reads := by
    intro d p ts rest hts hrest hd
    have hopens := h.opens hts hrest.ahead
    obtain ⟨x, hread, hx⟩ := h.expression hts hrest hd
    refine ⟨x, ?_, hx⟩
    unfold Readers.argument
    split
    · exact absurd ‹_› (hopens.ne rfl)
    · exact absurd ‹_› (hopens.ne rfl)
    · rename_i name heq
      rw [hopens.unnamed name heq "=" (by decide), Bool.false_and]
      exact hread
    · exact hread

/-- A name with a value is an argument of a call. -/
theorem readsItem_keyword {name : String} (hname : name ∉ Readers.reservedInCalls) (h : Reads ls P) :
    ReadsItem Readers.argument (.word name :: .symbol "=" :: ls) (fun x => ∃ value, x = .keyword name value ∧ P value) where
  opens := by
    intro ts rest hts _
    rcases hts with _ | ⟨⟨hword, -⟩, -⟩
    rw [List.cons_append, lexeme?, hword]
    rfl
  reads := by
    intro d p ts rest hts hrest hd
    rcases hts with _ | ⟨⟨hword, -⟩, _ | ⟨⟨hequals, -⟩, hts⟩⟩
    rename_i word equals ts
    obtain ⟨value, hread, hvalue⟩ := h.expression hts hrest (d := d) (by simp at hd; omega)
    refine ⟨.keyword name value, ?_, value, rfl, hvalue⟩
    have hfirst : lexeme? (word :: equals :: (ts ++ rest)) = .word name := hword
    have hsecond : atSymbol "=" (List.drop 1 (word :: equals :: (ts ++ rest))) = true := beq_iff_eq.mpr hequals
    have hunreserved : (!decide (name ∈ Readers.reservedInCalls)) = true := by rw [decide_eq_false hname]; rfl
    show Readers.argument (readers d) p (word :: equals :: (ts ++ rest)) = _
    unfold Readers.argument
    rw [hfirst]
    dsimp only
    have hbehind : List.drop 2 (word :: equals :: (ts ++ rest)) = ts ++ rest := rfl
    rw [hsecond, hunreserved, Bool.and_self, if_pos rfl, hbehind, hread]
    rfl

/-! ## Single lexemes and signs -/

/-- A lexeme that is an operand by itself. -/
theorem reads_atom (hl : opensOperand l = true) (hsign : ∀ mark ∈ signs, l ≠ .symbol mark)
    (hatom : ∀ {r p t rest}, t.lexeme = l → Behind p rest → ∃ x, Readers.atom r p (t :: rest) = .ok (x, rest) ∧ P x) :
    Reads [l] P := by
  have hopens {ts rest : Tokens} (hts : Spells [l] ts) (hrest : closes (lexeme? rest) = true) : Opens (ts ++ rest) := by
    rcases hts with _ | ⟨⟨rfl, -⟩, _ | _⟩
    refine ⟨hl, ?_⟩
    intro text _ mark hmark
    have hmarks : ∀ mark ∈ ["=", ":="], closes (.symbol mark) = false := by decide
    apply beq_eq_false_iff_ne.mpr
    intro heq
    rw [show lexeme? rest = .symbol mark from heq, hmarks mark hmark] at hrest
    cases hrest
  refine ⟨hopens, ?_⟩
  intro d fuel p ts rest hts hrest _ hfuel
  have hoperand := hopens hts hrest.ahead
  rcases hts with _ | ⟨⟨rfl, -⟩, _ | _⟩
  rename_i t
  obtain ⟨fuel, rfl⟩ : ∃ n, fuel = n + 1 := ⟨fuel - 1, by simp at hfuel; omega⟩
  obtain ⟨x, hread, hx⟩ := hatom (r := readers d) rfl hrest
  exact ⟨x, primary_of_postfixed hoperand hsign (postfixed_of_atom hread hrest) fuel, hx⟩

theorem reads_none : Reads [.word "None"] (· = .none) :=
  reads_atom (by decide) (by decide) fun ht _ => ⟨.none, by simp only [Readers.atom, lexeme?, ht]; rfl, rfl⟩

theorem reads_true : Reads [.word "True"] (· = .truth true) :=
  reads_atom (by decide) (by decide) fun ht _ => ⟨.truth true, by simp only [Readers.atom, lexeme?, ht]; rfl, rfl⟩

theorem reads_false : Reads [.word "False"] (· = .truth false) :=
  reads_atom (by decide) (by decide) fun ht _ => ⟨.truth false, by simp only [Readers.atom, lexeme?, ht]; rfl, rfl⟩

/-- The words that are values. -/
def valueWords : List String := ["None", "True", "False"]

theorem atom_word {name : String} (hname : name ∉ valueWords) (h : lexeme? ts = .word name) :
    r.atom p ts = .ok (.name name, ts.drop 1) := by
  simp only [valueWords, List.mem_cons, List.not_mem_nil, or_false, not_or] at hname
  obtain ⟨hnone, htrue, hfalse⟩ := hname
  simp [Readers.atom, h]

theorem reads_name {name : String} (hname : name ∉ valueWords) (hopening : name ∉ openingWords) :
    Reads [.word name] (· = .name name) :=
  reads_atom (decide_eq_true hopening) (by simp) fun ht _ => ⟨.name name, atom_word hname ht, rfl⟩

theorem reads_integer (text : String) : Reads [.integer text] (· = .integer text) :=
  reads_atom rfl (by simp) fun ht _ => ⟨.integer text, by simp only [Readers.atom, lexeme?, ht]; rfl, rfl⟩

theorem reads_float (text : String) : Reads [.float text] (· = .float text) :=
  reads_atom rfl (by simp) fun ht _ => ⟨.float text, by simp only [Readers.atom, lexeme?, ht]; rfl, rfl⟩

/-- No other literal goes on with a string. -/
theorem reads_string (text : String) : Reads [.string text] (fun x => ∃ spelling, x = .string [text] spelling) := by
  refine reads_atom rfl (by simp) fun {r p t rest} ht hrest =>
    ⟨.string [text] (Token.spelled (t :: rest) rest), ?_, _, rfl⟩
  have hnext : atString (p.next rest) = false := by
    unfold atString
    split
    · exact absurd ‹_› (hrest.ne rfl)
    · exact absurd ‹_› (hrest.ne rfl)
    · rfl
  have hparts : stringParts r.expression p (t :: rest).length (t :: rest) = .ok ([text], rest) := by
    rw [List.length_cons, stringParts]
    simp only [stringPart, lexeme?, ht, bind, Except.bind, List.drop_one, List.tail_cons, hnext, Bool.false_eq_true,
      if_false]
  simp only [Readers.atom, lexeme?, ht, hparts, bind, Except.bind]

/-- A sign and what stands behind it. -/
theorem primary_sign {t : Token} {mark : String} (hmark : mark ∈ signs) (ht : t.lexeme = .symbol mark) {fuel : Nat}
    (hread : r.primary p fuel ts = .ok (x, rest)) :
    r.primary p (fuel + 1) (t :: ts) = .ok (.unary mark x (Token.spelled (t :: ts) rest), rest) := by
  have hstart : p.start (t :: ts) = t :: ts := skipBreak_cons (by simp [ht]) p.level _
  rw [Readers.primary, hstart]
  rcases List.mem_pair.mp hmark with rfl | rfl
  · simp only [lexeme?, ht, List.drop_one, List.tail_cons, hread, bind, Except.bind]
  · simp only [lexeme?, ht, List.drop_one, List.tail_cons, hread, bind, Except.bind]

/-- Something other than a word in front of an operand or at its start. -/
theorem opens_unworded (hfirst : opensOperand (lexeme? ts) = true) (hword : ∀ text, lexeme? ts ≠ .word text) :
    Opens ts :=
  ⟨hfirst, fun text heq => absurd heq (hword text)⟩

theorem opens_symbol {t : Token} {mark : String} (ht : t.lexeme = .symbol mark)
    (hmark : mark ∈ ["+", "-", "(", "["]) (ts : Tokens) : Opens (t :: ts) :=
  opens_unworded (by rw [lexeme?, ht]; exact decide_eq_true hmark) (by simp [lexeme?, ht])

/-- **A minus** in front of an operand. -/
theorem reads_minus (h : Reads ls P) :
    Reads (.symbol "-" :: ls) (fun x => ∃ operand text, x = .unary "-" operand text ∧ P operand) where
  opens := by
    intro ts rest hts _
    rcases hts with _ | ⟨⟨hminus, -⟩, -⟩
    exact opens_symbol hminus (by decide) _
  reads := by
    intro d fuel p ts rest hts hrest hd hfuel
    rcases hts with _ | ⟨⟨hminus, -⟩, hts⟩
    obtain ⟨fuel, rfl⟩ : ∃ n, fuel = n + 1 := ⟨fuel - 1, by simp at hfuel; omega⟩
    rw [List.length_cons] at hd hfuel
    obtain ⟨operand, hread, hoperand⟩ := h.reads hts hrest (Nat.le_of_succ_le hd) (Nat.le_of_succ_le_succ hfuel)
    exact ⟨_, primary_sign (by decide) hminus hread, operand, _, rfl, hoperand⟩

/-! ## Items between brackets -/

variable {α : Type} {a : α} {items : List α} {lss : List (List Lexeme)} {Q : α → Expr → Prop} {close : String} {d : ℕ}
  {read : Readers → Place → Tokens → Except Tokens (Expr × Tokens)}

/-- The tokens of the first item, the bracket or comma behind it, and the other items. -/
theorem split_first (hts : Spells (commas (ls :: lss) ++ [.symbol close]) ts) :
    ∃ front t us, ts = front ++ t :: us ∧ Spells ls front ∧ t.joins = []
      ∧ ((lss = [] ∧ us = [] ∧ t.lexeme = .symbol close)
        ∨ (lss ≠ [] ∧ t.lexeme = .symbol "," ∧ Spells (commas lss ++ [.symbol close]) us)) := by
  cases lss with
  | nil =>
    obtain ⟨front, behind, rfl, hfront, hbehind⟩ := hts.split
    rcases hbehind with _ | ⟨⟨ht, hjoins⟩, _ | _⟩
    exact ⟨front, _, [], rfl, hfront, hjoins, Or.inl ⟨rfl, rfl, ht⟩⟩
  | cons next lss =>
    have hcommas : commas (ls :: next :: lss) ++ [.symbol close]
        = ls ++ .symbol "," :: (commas (next :: lss) ++ [.symbol close]) := List.append_assoc _ _ _
    rw [hcommas] at hts
    obtain ⟨front, behind, rfl, hfront, hbehind⟩ := hts.split
    rcases hbehind with _ | ⟨⟨ht, hjoins⟩, hus⟩
    exact ⟨front, _, _, rfl, hfront, hjoins, Or.inr ⟨List.cons_ne_nil _ _, ht, hus⟩⟩

/-- **The first of the items between brackets** is read, and no joined line end stands in front of it or behind. -/
theorem first_item (hclose : close ∈ [",", ")", "]"]) (hitem : ReadsItem read ls (Q a))
    (hts : Spells (commas (ls :: lss) ++ [.symbol close]) ts) (hd : ls.length ≤ d) (rest : Tokens) :
    ∃ x t us, read (readers d) p (ts ++ rest) = .ok (x, t :: (us ++ rest)) ∧ Q a x
      ∧ closes (lexeme? (ts ++ rest)) = false ∧ joinItems (ts ++ rest) = [] ∧ joinItems (t :: (us ++ rest)) = []
      ∧ ((lss = [] ∧ us = [] ∧ t.lexeme = .symbol close)
        ∨ (lss ≠ [] ∧ t.lexeme = .symbol "," ∧ Spells (commas lss ++ [.symbol close]) us)) := by
  obtain ⟨front, t, us, rfl, hfront, hjoins, hbehind⟩ := split_first hts
  have hrest : Behind p (t :: (us ++ rest)) := by
    rcases hbehind with ⟨-, -, ht⟩ | ⟨-, ht, -⟩
    · exact behind_symbol ht hclose p _
    · exact behind_symbol ht (by decide) p _
  obtain ⟨x, hread, hx⟩ := hitem.reads (d := d) hfront hrest hd
  have hopens := hitem.opens hfront hrest.ahead
  rw [List.append_assoc, List.cons_append]
  refine ⟨x, t, us, hread, hx, hopens, ?_, by rw [joinItems, joinsAhead, hjoins, List.map_nil], hbehind⟩
  rcases hfront with _ | ⟨⟨-, hfirst⟩, -⟩
  · rw [List.nil_append, hrest.ahead] at hopens
    cases hopens
  · rw [List.cons_append, joinItems, joinsAhead, hfirst, List.map_nil]

theorem length_commas_cons (ls : List Lexeme) (lss : List (List Lexeme)) :
    (commas (ls :: lss)).length = ls.length + if lss = [] then 0 else (commas lss).length + 1 := by
  cases lss with
  | nil => rfl
  | cons next lss => rw [commas, List.length_append, List.length_cons, if_neg (by simp)]

theorem atSymbol_of_not_closes (close : String) (hclose : close ∈ [",", ")", "]"]) (h : closes (lexeme? ts) = false) :
    atSymbol close ts = false := by
  apply beq_eq_false_iff_ne.mpr
  intro heq
  rw [heq, closes, decide_eq_true hclose] at h
  cases h

/-- The brackets that close lists and calls. -/
def closingMarks : List String := [")", "]"]

theorem mem_of_closingMarks (h : close ∈ closingMarks) : close ∈ [",", ")", "]"] := List.mem_cons_of_mem _ h

theorem atSymbol_comma {t : Token} (hclose : close ∈ closingMarks) (ht : t.lexeme = .symbol close) (rest : Tokens) :
    atSymbol "," (t :: rest) = false := by
  apply beq_eq_false_iff_ne.mpr
  intro heq
  rw [lexeme?, ht] at heq
  cases heq
  exact absurd hclose (by decide)

/-- **Items up to the closing bracket** are read one after the other. -/
theorem bracketItems_commas (hclose : close ∈ closingMarks)
    (h : List.Forall₂ (fun a ls => ReadsItem read ls (Q a)) items lss) (hne : items ≠ [])
    (hts : Spells (commas lss ++ [.symbol close]) ts) (hd : (commas lss).length ≤ d) {fuel : ℕ}
    (hfuel : ts.length ≤ fuel) (rest : Tokens) :
    ∃ xs, bracketItems (read (readers d) p) close fuel (ts ++ rest) = .ok (xs, rest) ∧ List.Forall₂ Q items xs := by
  induction h generalizing ts fuel with
  | nil => exact absurd rfl hne
  | cons hitem hmore ih =>
    rename_i a ls items lss
    have hlength := hts.length_eq
    rw [List.length_append, List.length_singleton, length_commas_cons] at hlength
    rw [length_commas_cons] at hd
    obtain ⟨fuel, rfl⟩ : ∃ n, fuel = n + 1 := ⟨fuel - 1, by omega⟩
    obtain ⟨x, t, us, hread, hx, hopens, hbefore, hafter, hbehind⟩ :=
      first_item (p := p) (d := d) (mem_of_closingMarks hclose) hitem hts (by omega) rest
    have hnot := atSymbol_of_not_closes close (mem_of_closingMarks hclose) hopens
    rcases hbehind with ⟨rfl, rfl, ht⟩ | ⟨hlss, ht, hus⟩
    · obtain rfl := List.forall₂_nil_right_iff.mp hmore
      have hend : atSymbol close (t :: rest) = true := beq_iff_eq.mpr ht
      have hcomma := atSymbol_comma hclose ht rest
      rw [List.nil_append] at hread hafter
      refine ⟨[x], ?_, .cons hx .nil⟩
      rw [bracketItems, if_neg (by rw [hnot]; decide), hread]
      simp only [bind, Except.bind, hcomma, Bool.false_eq_true, if_false, hend, if_true, List.drop_one, List.tail_cons,
        hbefore, hafter, List.nil_append]
    · have hlengthUs := hus.length_eq
      rw [List.length_append, List.length_singleton] at hlengthUs
      rw [if_neg hlss] at hd hlength
      have hitems : items ≠ [] := by
        rintro rfl
        exact hlss (List.forall₂_nil_left_iff.mp hmore)
      have hless : us.length ≤ fuel := by omega
      obtain ⟨xs, hxs, hall⟩ := ih hitems hus (by omega) hless
      have hcomma : atSymbol "," (t :: (us ++ rest)) = true := beq_iff_eq.mpr ht
      refine ⟨x :: xs, ?_, .cons hx hall⟩
      rw [bracketItems, if_neg (by rw [hnot]; decide), hread]
      simp only [bind, Except.bind, hcomma, if_true, List.drop_one, List.tail_cons, hxs, hbefore, hafter,
        List.nil_append, List.cons_append]

/-- **The items between brackets**: the first of them, and those behind a comma. -/
theorem all_items (hclose : close ∈ closingMarks)
    (h : List.Forall₂ (fun a ls => ReadsItem read ls (Q a)) (a :: items) lss)
    (hts : Spells (commas lss ++ [.symbol close]) ts) (hd : (commas lss).length ≤ d) (rest : Tokens) :
    ∃ x t behind, read (readers d) p (ts ++ rest) = .ok (x, t :: behind) ∧ Q a x
      ∧ closes (lexeme? (ts ++ rest)) = false ∧ joinItems (ts ++ rest) = [] ∧ joinItems (t :: behind) = []
      ∧ ((t.lexeme = .symbol close ∧ behind = rest ∧ items = [])
        ∨ (t.lexeme = .symbol "," ∧ ∃ xs, List.Forall₂ Q items xs
          ∧ bracketItems (read (readers d) p) close (t :: behind).length behind = .ok (xs, rest))) := by
  rcases h with _ | ⟨hitem, hmore⟩
  rename_i ls lss
  rw [length_commas_cons] at hd
  obtain ⟨x, t, us, hread, hx, hopens, hbefore, hafter, hbehind⟩ :=
    first_item (p := p) (d := d) (mem_of_closingMarks hclose) hitem hts (by omega) rest
  refine ⟨x, t, us ++ rest, hread, hx, hopens, hbefore, hafter, ?_⟩
  rcases hbehind with ⟨rfl, rfl, ht⟩ | ⟨hlss, ht, hus⟩
  · exact Or.inl ⟨ht, rfl, List.forall₂_nil_right_iff.mp hmore⟩
  · rw [if_neg hlss] at hd
    have hitems : items ≠ [] := by
      rintro rfl
      exact hlss (List.forall₂_nil_left_iff.mp hmore)
    have hfuel : us.length ≤ (t :: (us ++ rest)).length := by
      rw [List.length_cons, List.length_append]
      omega
    obtain ⟨xs, hxs, hall⟩ := bracketItems_commas (p := p) (d := d) hclose hmore hitems hus (by omega) hfuel rest
    exact Or.inr ⟨ht, xs, hall, hxs⟩

/-- No comprehension goes on with an item. -/
theorem not_atComprehension {t : Token} {mark : String} (ht : t.lexeme = .symbol mark) (rest : Tokens) :
    atComprehension (t :: rest) = false := by
  simp [atComprehension, atWord, lexeme?, ht]

theorem symbol_of_lexeme {t : Token} {mark : String} (ht : t.lexeme = .symbol mark) (rest : Tokens) :
    symbol mark (t :: rest) = .ok ((), rest) := by
  rw [symbol, if_pos (by rw [atSymbol, lexeme?, ht]; exact beq_self_eq_true _)]
  rfl

theorem atSymbol_of_ne {t : Token} {mark mark' : String} (ht : t.lexeme = .symbol mark) (hne : mark ≠ mark')
    (rest : Tokens) : atSymbol mark' (t :: rest) = false := by
  apply beq_eq_false_iff_ne.mpr
  rw [lexeme?, ht]
  exact fun heq => hne (Lexeme.symbol.inj heq)

/-- **A list** is read item by item. -/
theorem square_commas (h : List.Forall₂ (fun a ls => ReadsItem (fun r => element r.expression) ls (Q a)) items lss)
    (hts : Spells (.symbol "[" :: (commas lss ++ [.symbol "]"])) ts) (hd : (commas lss).length ≤ d) (rest : Tokens) :
    ∃ xs, (readers d).square p (ts ++ rest) = .ok (.list xs, rest) ∧ List.Forall₂ Q items xs := by
  rcases hts with _ | ⟨⟨hopen, -⟩, hts⟩
  rename_i opening ts
  rw [List.cons_append, Readers.square, symbol_of_lexeme hopen]
  cases items with
  | nil =>
    obtain rfl := List.forall₂_nil_left_iff.mp h
    rcases hts with _ | ⟨⟨hlast, hjoins⟩, _ | _⟩
    refine ⟨[], ?_, .nil⟩
    simp [bind, Except.bind, atSymbol, lexeme?, hlast, joinItems, joinsAhead, hjoins]
  | cons a items =>
    obtain ⟨x, t, behind, hread, hx, hopens, hbefore, hafter, hbehind⟩ :=
      all_items (p := p.inside) (by decide) h hts hd rest
    have hnot := atSymbol_of_not_closes "]" (by decide) hopens
    rcases hbehind with ⟨ht, rfl, rfl⟩ | ⟨ht, xs, hxs, hitems⟩
    · have hclauses := not_atComprehension ht behind
      have hend : atSymbol "]" (t :: behind) = true := beq_iff_eq.mpr ht
      refine ⟨[x], ?_, .cons hx .nil⟩
      simp [bind, Except.bind, hnot, hread, hclauses, hend, hbefore, hafter]
    · have hclauses := not_atComprehension ht behind
      have hend : atSymbol "]" (t :: behind) = false := atSymbol_of_ne ht (by decide) behind
      have hcomma : atSymbol "," (t :: behind) = true := beq_iff_eq.mpr ht
      refine ⟨x :: xs, ?_, .cons hx hxs⟩
      simp only [bind, Except.bind, hnot, Bool.false_eq_true, if_false, hread, hclauses, hend, hcomma, if_true,
        List.drop_one, List.tail_cons, hitems, hbefore, hafter, List.nil_append, List.cons_append]

/-- **The arguments of a call** are read one by one. -/
theorem arguments_commas (h : List.Forall₂ (fun a ls => ReadsItem Readers.argument ls (Q a)) items lss)
    (hts : Spells (.symbol "(" :: (commas lss ++ [.symbol ")"])) ts) (hd : (commas lss).length ≤ d) (rest : Tokens)
    (callee : Expr) :
    ∃ xs, (readers d).arguments p callee (ts ++ rest) = .ok (.call callee xs, rest) ∧ List.Forall₂ Q items xs := by
  rcases hts with _ | ⟨⟨hopen, -⟩, hts⟩
  rename_i opening ts
  rw [List.cons_append, Readers.arguments, symbol_of_lexeme hopen]
  cases items with
  | nil =>
    obtain rfl := List.forall₂_nil_left_iff.mp h
    rcases hts with _ | ⟨⟨hlast, hjoins⟩, _ | _⟩
    refine ⟨[], ?_, .nil⟩
    simp [bind, Except.bind, atSymbol, lexeme?, hlast, joinItems, joinsAhead, hjoins]
  | cons a items =>
    obtain ⟨x, t, behind, hread, hx, hopens, hbefore, hafter, hbehind⟩ :=
      all_items (p := p.inside) (by decide) h hts hd rest
    have hnot := atSymbol_of_not_closes ")" (by decide) hopens
    have hnoComma := atSymbol_of_not_closes "," (by decide) hopens
    rcases hbehind with ⟨ht, rfl, rfl⟩ | ⟨ht, xs, hxs, hitems⟩
    · have hclauses := not_atComprehension ht behind
      have hend : atSymbol ")" (t :: behind) = true := beq_iff_eq.mpr ht
      refine ⟨[x], ?_, .cons hx .nil⟩
      simp [bind, Except.bind, hnot, hnoComma, hread, hclauses, hend, hbefore, hafter]
    · have hclauses := not_atComprehension ht behind
      have hend : atSymbol ")" (t :: behind) = false := atSymbol_of_ne ht (by decide) behind
      have hcomma : atSymbol "," (t :: behind) = true := beq_iff_eq.mpr ht
      refine ⟨x :: xs, ?_, .cons hx hxs⟩
      simp only [bind, Except.bind, hnot, hnoComma, Bool.false_eq_true, if_false, hread, hclauses, hend, hcomma,
        if_true, List.drop_one, List.tail_cons, hitems, hbefore, hafter, List.nil_append, List.cons_append]

/-! ## Lists and calls -/

/-- **A list** of operands is an operand. -/
theorem reads_list (h : List.Forall₂ (fun a ls => Reads ls (Q a)) items lss) :
    Reads (.symbol "[" :: (commas lss ++ [.symbol "]"])) (fun x => ∃ xs, x = .list xs ∧ List.Forall₂ Q items xs) := by
  have hopens {ts : Tokens} (hts : Spells (.symbol "[" :: (commas lss ++ [.symbol "]"])) ts) (rest : Tokens) :
      Opens (ts ++ rest) ∧ lexeme? (ts ++ rest) = .symbol "[" := by
    rcases hts with _ | ⟨⟨hfirst, -⟩, -⟩
    exact ⟨opens_symbol hfirst (by decide) _, hfirst⟩
  refine ⟨fun hts _ => (hopens hts _).1, ?_⟩
  intro d fuel p ts rest hts hrest hd hfuel
  obtain ⟨hopen, hfirst⟩ := hopens hts rest
  obtain ⟨fuel, rfl⟩ : ∃ n, fuel = n + 1 := ⟨fuel - 1, by simp at hfuel; omega⟩
  have hitems : List.Forall₂ (fun a ls => ReadsItem (fun r => element r.expression) ls (Q a)) items lss :=
    h.imp fun _ _ hreads => hreads.element
  obtain ⟨xs, hxs, hall⟩ := square_commas (p := p) (d := d) hitems hts (by simp at hd; omega) rest
  have hatom : (readers d).atom p (ts ++ rest) = .ok (.list xs, rest) := by
    simp only [Readers.atom, hfirst, hxs]
  exact ⟨.list xs, primary_of_postfixed hopen (by simp [hfirst, signs]) (postfixed_of_atom hatom hrest) fuel, xs, rfl, hall⟩

/-- The arguments behind what is called. -/
theorem trailers_call (h : List.Forall₂ (fun a ls => ReadsItem Readers.argument ls (Q a)) items lss)
    (hts : Spells (.symbol "(" :: (commas lss ++ [.symbol ")"])) ts) (hd : (commas lss).length ≤ d)
    (hrest : Behind p rest) (origin : Tokens) (fuel : Nat) (callee : Expr) :
    ∃ xs, (readers d).trailers p origin (fuel + 2) callee (ts ++ rest) = .ok (.call callee xs, rest)
      ∧ List.Forall₂ Q items xs := by
  obtain ⟨xs, hxs, hall⟩ := arguments_commas (p := p) h hts hd rest callee
  refine ⟨xs, ?_, hall⟩
  rcases hts with _ | ⟨⟨hopen, -⟩, -⟩
  rw [List.cons_append] at hxs ⊢
  rw [Readers.trailers, next_of_symbol hopen]
  simp only [lexeme?, hopen, hxs, bind, Except.bind, trailers_behind hrest]

/-- A name that a symbol other than an equals sign follows. -/
theorem opens_word {name mark : String} (hname : name ∉ openingWords) (hmark : mark ∉ ["=", ":="])
    (hts : Spells (.word name :: .symbol mark :: ls) ts) (rest : Tokens) : Opens (ts ++ rest) := by
  rcases hts with _ | ⟨⟨hword, -⟩, _ | ⟨⟨hsecond, -⟩, -⟩⟩
  refine ⟨by rw [List.cons_append, lexeme?, hword]; exact decide_eq_true hname, ?_⟩
  intro text _ mark' hmark'
  refine atSymbol_of_ne hsecond ?_ _
  rintro rfl
  exact hmark hmark'

/-- **A call of a function** is an operand. -/
theorem reads_call {function : String} (hvalue : function ∉ valueWords) (hopening : function ∉ openingWords)
    (h : List.Forall₂ (fun a ls => ReadsItem Readers.argument ls (Q a)) items lss) :
    Reads (.word function :: .symbol "(" :: (commas lss ++ [.symbol ")"]))
      (fun x => ∃ xs, x = .call (.name function) xs ∧ List.Forall₂ Q items xs) := by
  refine ⟨fun hts _ => opens_word hopening (by decide) hts _, ?_⟩
  intro d fuel p ts rest hts hrest hd hfuel
  have hopens := opens_word hopening (by decide) hts rest
  obtain ⟨fuel, rfl⟩ : ∃ n, fuel = n + 1 := ⟨fuel - 1, by simp at hfuel; omega⟩
  rcases hts with _ | ⟨⟨hword, -⟩, hts⟩
  rename_i word ts
  have hfirst : lexeme? (word :: (ts ++ rest)) = .word function := hword
  obtain ⟨xs, hxs, hall⟩ := trailers_call (d := d) h hts (by simp at hd; omega) hrest (word :: (ts ++ rest))
    (ts ++ rest).length (.name function)
  have hread : (readers d).postfixed p (word :: (ts ++ rest)) = .ok (.call (.name function) xs, rest) := by
    rw [Readers.postfixed, atom_word hvalue hfirst]
    exact hxs
  exact ⟨_, primary_of_postfixed hopens (by simp [hfirst]) hread fuel, xs, rfl, hall⟩

/-- **A call of a method** is an operand. -/
theorem reads_methodCall {object function : String} (hvalue : object ∉ valueWords) (hopening : object ∉ openingWords)
    (h : List.Forall₂ (fun a ls => ReadsItem Readers.argument ls (Q a)) items lss) :
    Reads (.word object :: .symbol "." :: .word function :: .symbol "(" :: (commas lss ++ [.symbol ")"]))
      (fun x => ∃ xs, x = .call (.attribute (.name object) function) xs ∧ List.Forall₂ Q items xs) := by
  refine ⟨fun hts _ => opens_word hopening (by decide) hts _, ?_⟩
  intro d fuel p ts rest hts hrest hd hfuel
  have hopens := opens_word hopening (by decide) hts rest
  obtain ⟨fuel, rfl⟩ : ∃ n, fuel = n + 1 := ⟨fuel - 1, by simp at hfuel; omega⟩
  rcases hts with _ | ⟨⟨hword, -⟩, _ | ⟨⟨hpoint, -⟩, _ | ⟨⟨hmethod, -⟩, hts⟩⟩⟩
  rename_i word point method ts
  have hfirst : lexeme? (word :: point :: method :: (ts ++ rest)) = .word object := hword
  obtain ⟨xs, hxs, hall⟩ := trailers_call (d := d) h hts (by simp at hd; omega) hrest
    (word :: point :: method :: (ts ++ rest)) ((ts ++ rest).length + 1) (.attribute (.name object) function)
  have hread : (readers d).postfixed p (word :: point :: method :: (ts ++ rest))
      = .ok (.call (.attribute (.name object) function) xs, rest) := by
    have hstart : p.start (method :: (ts ++ rest)) = method :: (ts ++ rest) :=
      skipBreak_cons (by simp [hmethod]) p.level _
    have hname : identifier (method :: (ts ++ rest)) = .ok (function, ts ++ rest) := by
      obtain ⟨lexeme, gap, joins, line⟩ := method
      subst hmethod
      rfl
    rw [Readers.postfixed, atom_word hvalue hfirst]
    show (readers d).trailers p _ ((ts ++ rest).length + 1 + 2 + 1) (.name object) (point :: method :: (ts ++ rest)) = _
    rw [Readers.trailers, next_of_symbol hpoint]
    simp only [lexeme?, hpoint, List.drop_one, List.tail_cons, hstart, hname, bind, Except.bind]
    exact hxs
  exact ⟨_, primary_of_postfixed hopens (by simp [hfirst]) hread fuel, xs, rfl, hall⟩

/-! ## Texts that stand for expressions -/

/-- A text that stands for an expression with a property, wherever it stands in a line. -/
structure Written (s : List Char) (P : Expr → Prop) : Prop where
  opens : Lexer.ArrowFree s
  reads : ∃ ls, Lexer.Scans s ls ∧ Reads ls P

/-- A text that stands for an argument of a call. -/
def WrittenArgument (s : List Char) (P : Expr → Prop) : Prop :=
  ∃ ls, Lexer.Scans s ls ∧ ReadsItem Readers.argument ls P

variable {P' : Expr → Prop} {s : List Char} {text : α → List Char}

theorem Written.imp (h : Written s P) (himp : ∀ x, P x → P' x) : Written s P' := by
  obtain ⟨ls, hscans, hreads⟩ := h.reads
  refine ⟨h.opens, ls, hscans, hreads.opens, ?_⟩
  intro d fuel p ts rest hts hrest hd hfuel
  obtain ⟨x, hread, hx⟩ := hreads.reads hts hrest hd hfuel
  exact ⟨x, hread, himp x hx⟩

theorem WrittenArgument.imp (h : WrittenArgument s P) (himp : ∀ x, P x → P' x) : WrittenArgument s P' := by
  obtain ⟨ls, hscans, hreads⟩ := h
  refine ⟨ls, hscans, hreads.opens, ?_⟩
  intro d p ts rest hts hrest hd
  obtain ⟨x, hread, hx⟩ := hreads.reads hts hrest hd
  exact ⟨x, hread, himp x hx⟩

theorem Written.argument (h : Written s P) : WrittenArgument s P := by
  obtain ⟨ls, hscans, hreads⟩ := h.reads
  exact ⟨ls, hscans, hreads.argument⟩

/-- A keyword with a value is an argument. -/
theorem Written.keyword {name : String} (hname : Text.isIdentifier name.toList = true)
    (hreserved : name ∉ Readers.reservedInCalls) (h : Written s P) :
    WrittenArgument (name.toList ++ '=' :: s) (fun x => ∃ value, x = .keyword name value ∧ P value) := by
  obtain ⟨ls, hscans, hreads⟩ := h.reads
  exact ⟨_, Lexer.scans_keyword hname h.opens hscans, readsItem_keyword hreserved hreads⟩

theorem arrowFree_of_class (test : Char → Bool) (htest : test '=' = false ∧ test '>' = false) (hne : s ≠ [])
    (h : ∀ c ∈ s, test c = true) (rest : List Char) : Lexer.ArrowFree (s ++ rest) := by
  obtain ⟨c, more, rfl⟩ := List.exists_cons_of_ne_nil hne
  have hc := h c List.mem_cons_self
  exact ⟨c, more ++ rest, rfl, Lexer.ne_of_class hc htest.1, Lexer.ne_of_class hc htest.2⟩

theorem arrowFree_word {word : String} (hword : Text.isIdentifier word.toList = true) (rest : List Char) :
    Lexer.ArrowFree (word.toList ++ rest) := by
  cases hchars : word.toList with
  | nil =>
    rw [hchars] at hword
    cases hword
  | cons c more =>
    rw [hchars, Text.isIdentifier, Bool.and_eq_true, List.all_eq_true] at hword
    exact arrowFree_of_class Text.isIdentifierPart (by decide) (List.cons_ne_nil _ _)
      (List.forall_mem_cons.mpr ⟨Lexer.isIdentifierPart_of_start hword.1, hword.2⟩) rest

theorem written_word (word : String) (hword : Text.isIdentifier word.toList = true) (h : Reads [.word word] P) :
    Written word.toList P := by
  have hopens := arrowFree_word hword []
  rw [List.append_nil] at hopens
  exact ⟨hopens, _, Lexer.scans_word hword, h⟩

theorem written_digits (n : ℕ) : Written (digitsOf n) (· = .integer (String.ofList (digitsOf n))) := by
  have hopens := arrowFree_of_class Char.isDigit (by decide) (Decimal.digitsOf_ne_nil n)
    (Decimal.areDigits_digitsOf n) []
  rw [List.append_nil] at hopens
  exact ⟨hopens, _, Lexer.scans_digits (Decimal.digitsOf_ne_nil n) (Decimal.areDigits_digitsOf n), reads_integer _⟩

theorem written_decimal {w : WrittenDecimal} (hform : w.fraction.isSome ∨ w.power.isSome) :
    Written w.chars (· = .float (String.ofList w.chars)) := by
  refine ⟨?_, _, Lexer.scans_decimal hform, reads_float _⟩
  rw [WrittenDecimal.chars, List.append_assoc]
  exact arrowFree_of_class Char.isDigit (by decide) w.whole_ne_nil
    (fun c hc => w.areDigits c (List.mem_append_left _ hc)) _

theorem written_quote {value : String} (hnull : '\x00' ∉ value.toList) :
    Written (quote value).toList (fun x => ∃ spelling, x = .string [quote value] spelling) where
  opens := ⟨'\x27', _, by rw [quote, String.toList_ofList]; rfl, by decide, by decide⟩
  reads := ⟨_, Lexer.scans_quote hnull, reads_string _⟩

theorem written_minus (h : Written s P) :
    Written ('-' :: s) (fun x => ∃ operand spelling, x = .unary "-" operand spelling ∧ P operand) := by
  obtain ⟨ls, hscans, hreads⟩ := h.reads
  exact ⟨⟨'-', s, rfl, by decide, by decide⟩, _, Lexer.scans_minus h.opens hscans, reads_minus hreads⟩

/-- Something for each of several things. -/
theorem exists_forall₂ {β : Type} {R : α → β → Prop} (h : ∀ a ∈ items, ∃ b, R a b) :
    ∃ bs, List.Forall₂ R items bs := by
  induction items with
  | nil => exact ⟨[], .nil⟩
  | cons a items ih =>
    obtain ⟨b, hb⟩ := h a List.mem_cons_self
    obtain ⟨bs, hbs⟩ := ih fun c hc => h c (List.mem_cons_of_mem a hc)
    exact ⟨b :: bs, .cons hb hbs⟩

/-- **A list of written expressions** is a written expression. -/
theorem written_list (text : α → List Char) (h : ∀ a ∈ items, Written (text a) (Q a)) :
    Written ('[' :: (Text.join [',', ' '] (items.map text) ++ [']']))
      (fun x => ∃ xs, x = .list xs ∧ List.Forall₂ Q items xs) := by
  obtain ⟨lss, hlss⟩ := exists_forall₂ fun a ha => (h a ha).reads
  have hscans : List.Forall₂ Lexer.Scans (items.map text) lss :=
    List.forall₂_map_left_iff.mpr (hlss.imp fun _ _ hls => hls.1)
  exact ⟨⟨'[', _, rfl, by decide, by decide⟩, _, Lexer.scans_list hscans,
    reads_list (hlss.imp fun _ _ hls => hls.2)⟩

/-- **A call with written arguments** is a written expression. -/
theorem written_call (function : String) (hname : Text.isIdentifier function.toList = true)
    (hvalue : function ∉ valueWords) (hopening : function ∉ openingWords)
    (h : ∀ a ∈ items, WrittenArgument (text a) (Q a)) :
    Written (function.toList ++ '(' :: (Text.join [',', ' '] (items.map text) ++ [')']))
      (fun x => ∃ xs, x = .call (.name function) xs ∧ List.Forall₂ Q items xs) := by
  obtain ⟨lss, hlss⟩ := exists_forall₂ h
  have hscans : List.Forall₂ Lexer.Scans (items.map text) lss :=
    List.forall₂_map_left_iff.mpr (hlss.imp fun _ _ hls => hls.1)
  exact ⟨arrowFree_word hname _, _, Lexer.scans_call hscans hname,
    reads_call hvalue hopening (hlss.imp fun _ _ hls => hls.2)⟩

/-- A call of a method with written arguments is a written expression. -/
theorem written_methodCall (object function : String) (hobject : Text.isIdentifier object.toList = true)
    (hname : Text.isIdentifier function.toList = true) (hvalue : object ∉ valueWords)
    (hopening : object ∉ openingWords) (h : ∀ a ∈ items, WrittenArgument (text a) (Q a)) :
    Written (object.toList ++ '.' :: (function.toList ++ '(' :: (Text.join [',', ' '] (items.map text) ++ [')'])))
      (fun x => ∃ xs, x = .call (.attribute (.name object) function) xs ∧ List.Forall₂ Q items xs) := by
  obtain ⟨lss, hlss⟩ := exists_forall₂ h
  have hscans : List.Forall₂ Lexer.Scans (items.map text) lss :=
    List.forall₂_map_left_iff.mpr (hlss.imp fun _ _ hls => hls.1)
  exact ⟨arrowFree_word hobject _, _, Lexer.scans_methodCall hscans hobject hname,
    reads_methodCall hvalue hopening (hlss.imp fun _ _ hls => hls.2)⟩

/-- At the end of a text a statement ends. -/
theorem atStatementEnd_tokensFrom_nil (fuel line : ℕ) :
    atStatementEnd (Lexer.tokensFrom (fuel + 1) [] line []) = true
      ∧ Behind (.statement 0) (Lexer.tokensFrom (fuel + 1) [] line []) := ⟨rfl, rfl⟩

/-- **A line with a written expression** is read to its end. -/
theorem Written.expression (h : Written s P) :
    ∃ x rest, Source.expression (.statement 0) (Lexer.tokens (String.ofList s)) = .ok (x, rest)
      ∧ atStatementEnd rest = true ∧ P x := by
  obtain ⟨ls, hscans, hreads⟩ := h.reads
  have hgoes : Lexer.Goes [] ([] ++ (s ++ [])) ls [] [] :=
    hscans (List.forall_mem_nil _) (Or.inl rfl) Lexer.ends_nil
  obtain ⟨ts, fuel, hts, hfuel, htokens⟩ := hgoes 1 (s.length + 1) (by simp)
  obtain ⟨fuel, rfl⟩ : ∃ n, fuel = n + 1 := ⟨fuel - 1, by simp at hfuel; omega⟩
  obtain ⟨hend, hbehind⟩ := atStatementEnd_tokensFrom_nil fuel 1
  rw [List.nil_append, List.append_nil] at htokens
  have hlength := hts.length_eq
  obtain ⟨x, hread, hx⟩ := hreads.expression (d := (Lexer.tokens (String.ofList s)).length + 1) hts hbehind (by
    rw [Lexer.tokens, String.toList_ofList, htokens, List.length_append]
    omega)
  rw [← htokens] at hread
  refine ⟨x, _, ?_, hend, hx⟩
  rw [Source.expression, readersFor]
  rwa [Lexer.tokens, String.toList_ofList] at hread ⊢

end ClassCli.Source
