import Mathlib.Data.Nat.Digits.Defs
import ClassCli.Proofs.Source.WrittenExpressions

/-!
# Integers of written code

An integer is written in base ten, or behind a zero and a letter in base sixteen, eight or two. An underscore may
stand in front of every digit but the first one of base ten, and a number in base ten that opens with a zero is zero.
Code is split into such tokens wherever nothing follows that goes on with a number. Signs and round brackets may stand
around a token in any number. They are read one inside the other, except that a joined line end right behind an opening
bracket is taken for what the brackets hold.

* **`Digit`**, **`MarkedBase`** — the digits with their values, and the bases that a letter marks.
* **`IsInteger`** — the integer tokens with their magnitudes.
* **`split_integer`**, **`scans_integer`** — a token is split off as a whole.
* **`Wrapper`**, **`Lays`** — what stands around a token, and the tokens of the whole.
* **`Lays.expression`**, **`written_around`** — what is read of them.
-/

namespace ClassCli.Source

open Lexer (Scans Stops endsNumber)

/-! ## Digits -/

/-- The characters of digits with their values. -/
def digitTable : List (Char × ℕ) :=
  [('0', 0), ('1', 1), ('2', 2), ('3', 3), ('4', 4), ('5', 5), ('6', 6), ('7', 7), ('8', 8), ('9', 9),
    ('a', 10), ('b', 11), ('c', 12), ('d', 13), ('e', 14), ('f', 15),
    ('A', 10), ('B', 11), ('C', 12), ('D', 13), ('E', 14), ('F', 15)]

/-- A digit of some base. -/
structure Digit where
  char : Char
  value : ℕ
  listed : (char, value) ∈ digitTable

namespace Digit

variable (d : Digit)

theorem ne_underscore : d.char ≠ '_' := by
  have htable : ∀ entry ∈ digitTable, entry.1 ≠ '_' := by decide
  exact htable _ d.listed

theorem isDigit_of_lt {d : Digit} (h : d.value < 10) : d.char.isDigit = true := by
  have htable : ∀ entry ∈ digitTable, entry.2 < 10 → entry.1.isDigit = true := by decide
  exact htable _ d.listed h

/-- Every digit is a letter or a digit of base ten, so that it goes on with a number. -/
theorem goesOn : endsNumber d.char = true := by
  have htable : ∀ entry ∈ digitTable, endsNumber entry.1 = true := by decide
  exact htable _ d.listed

end Digit

/-- Digits, each perhaps with an underscore in front of it. -/
def spaced (ds : List (Bool × Digit)) : List Char :=
  ds.flatMap fun (underscore, d) => if underscore then ['_', d.char] else [d.char]

/-- The number that digits of a base spell, the last one counting least. -/
def magnitude (base : ℕ) (ds : List Digit) : ℕ := Nat.ofDigits base (ds.map Digit.value).reverse

/-! ## Tokens -/

/-- The bases that a letter behind a zero marks. -/
inductive MarkedBase where
  | hexadecimal
  | octal
  | binary

namespace MarkedBase

def base : MarkedBase → ℕ
  | hexadecimal => 16
  | octal => 8
  | binary => 2

def letters : MarkedBase → List Char
  | hexadecimal => ['x', 'X']
  | octal => ['o', 'O']
  | binary => ['b', 'B']

/-- How the digits of the base are recognized. -/
def test : MarkedBase → Char → Bool
  | hexadecimal => Number.isHexDigit
  | octal => Number.isOctalDigit
  | binary => Number.isBinaryDigit

end MarkedBase

/-- The integer tokens of the language, each with its magnitude. -/
inductive IsInteger : List Char → ℕ → Prop
  | decimal (first : Digit) (more : List (Bool × Digit)) (hbase : ∀ d ∈ first :: more.map Prod.snd, d.value < 10)
      (hzero : first.value = 0 → ∀ d ∈ more.map Prod.snd, d.value = 0) :
      IsInteger (first.char :: spaced more) (magnitude 10 (first :: more.map Prod.snd))
  | marked (m : MarkedBase) {letter : Char} (hletter : letter ∈ m.letters) {ds : List (Bool × Digit)} (hne : ds ≠ [])
      (hbase : ∀ d ∈ ds.map Prod.snd, d.value < m.base) :
      IsInteger ('0' :: letter :: spaced ds) (magnitude m.base (ds.map Prod.snd))

variable {ds : List (Bool × Digit)} {m : MarkedBase} {letter : Char} {text rest : List Char} {n : ℕ}

namespace MarkedBase

theorem test_of_lt {d : Digit} (h : d.value < m.base) : m.test d.char = true := by
  have htable : ∀ entry ∈ digitTable, (entry.2 < 16 → Number.isHexDigit entry.1 = true)
      ∧ (entry.2 < 8 → Number.isOctalDigit entry.1 = true) ∧ (entry.2 < 2 → Number.isBinaryDigit entry.1 = true) := by
    decide
  obtain ⟨hhex, hoctal, hbinary⟩ := htable _ d.listed
  cases m with
  | hexadecimal => exact hhex h
  | octal => exact hoctal h
  | binary => exact hbinary h

theorem radixDigits_letter (h : letter ∈ m.letters) : Number.radixDigits letter = some m.test := by
  cases m with
  | hexadecimal | octal | binary =>
    simp only [letters, List.mem_cons, List.not_mem_nil, or_false] at h
    rcases h with rfl | rfl
    · rfl
    · rfl

theorem toNat_lt_of_test {c : Char} (h : m.test c = true) : c.toNat < 103 := by
  have hlow {d : Char} (hd : d.toNat < 103) (hc : c ≤ d) : c.toNat < 103 := Nat.lt_of_le_of_lt hc hd
  cases m with
  | hexadecimal =>
    simp only [test, Number.isHexDigit, Bool.or_eq_true, Bool.and_eq_true, decide_eq_true_eq] at h
    rcases h with (h | ⟨-, h⟩) | ⟨-, h⟩
    · have hdigit := (Text.toNat_of_isDigit h).2
      omega
    · exact hlow (by decide) h
    · exact hlow (by decide) h
  | octal =>
    simp only [test, Number.isOctalDigit, Bool.and_eq_true, decide_eq_true_eq] at h
    exact hlow (by decide) h.2
  | binary =>
    simp only [test, Number.isBinaryDigit, Bool.or_eq_true, beq_iff_eq] at h
    rcases h with rfl | rfl
    · decide
    · decide

/-- The digits of whatever base go on with a number. -/
theorem goesOn_of_test {c : Char} (h : m.test c = true) : endsNumber c = true := by
  have htable : ∀ n < 103, m.test (Char.ofNat n) = true → endsNumber (Char.ofNat n) = true := by
    cases m with
    | hexadecimal | octal | binary => decide
  have hc := htable c.toNat (toNat_lt_of_test h)
  rw [Char.ofNat_toNat] at hc
  exact hc h

end MarkedBase

/-! ## Runs of digits -/

theorem spaced_cons (underscore : Bool) (d : Digit) (ds : List (Bool × Digit)) :
    spaced ((underscore, d) :: ds) = (if underscore then ['_'] else []) ++ d.char :: spaced ds := by
  cases underscore <;> rfl

/-- Digits of base ten are taken behind a digit, underscores included. -/
theorem digitRun_spaced (h : ∀ d ∈ ds.map Prod.snd, d.value < 10)
    (hrest : ∀ c ∈ rest.head?, c.isDigit = false ∧ c ≠ '_') :
    Number.digitRun true (spaced ds ++ rest) = (spaced ds, rest) := by
  induction ds with
  | nil => exact Lexer.digitRun_digits (List.forall_mem_nil _) hrest true
  | cons d ds ih =>
    obtain ⟨underscore, d⟩ := d
    rw [List.map_cons, List.forall_mem_cons] at h
    have hd : d.char.isDigit = true := Digit.isDigit_of_lt h.1
    have hrun (afterDigit : Bool) :
        Number.digitRun afterDigit (d.char :: (spaced ds ++ rest)) = (d.char :: spaced ds, rest) := by
      rw [Number.digitRun.eq_def]
      simp only [hd, if_true, ih h.2]
    rw [spaced_cons]
    cases underscore with
    | false => exact hrun true
    | true =>
      show Number.digitRun true ('_' :: d.char :: (spaced ds ++ rest)) = _
      rw [Number.digitRun.eq_def]
      simp [hd, hrun]

/-- Digits of a marked base are taken from the first one on, underscores included. -/
theorem radixRun_spaced (h : ∀ d ∈ ds.map Prod.snd, d.value < m.base) (hrest : Stops endsNumber rest) :
    Number.radixRun m.test (spaced ds ++ rest) = (spaced ds, rest) := by
  induction ds with
  | nil =>
    cases rest with
    | nil => rfl
    | cons c rest =>
      have hc := hrest c rfl
      have htest : m.test c = false := by
        by_contra htest
        rw [m.goesOn_of_test (Bool.not_eq_false _ ▸ htest)] at hc
        cases hc
      have hmark : c ≠ '_' := hrest.ne (by decide) c rfl
      show Number.radixRun m.test (c :: rest) = _
      rw [Number.radixRun.eq_def]
      simp [htest, hmark, spaced]
  | cons d ds ih =>
    obtain ⟨underscore, d⟩ := d
    rw [List.map_cons, List.forall_mem_cons] at h
    have hd : m.test d.char = true := m.test_of_lt h.1
    have hrun : Number.radixRun m.test (d.char :: (spaced ds ++ rest)) = (d.char :: spaced ds, rest) := by
      rw [Number.radixRun.eq_def]
      simp only [hd, if_true, ih h.2]
    have hmark : m.test '_' = false := by
      cases m with
      | hexadecimal | octal | binary => rfl
    rw [spaced_cons]
    cases underscore with
    | false => exact hrun
    | true =>
      show Number.radixRun m.test ('_' :: d.char :: (spaced ds ++ rest)) = _
      rw [Number.radixRun.eq_def]
      simp [hmark, hd, hrun]

theorem spaced_ne_nil (h : ds ≠ []) : spaced ds ≠ [] := by
  obtain ⟨⟨underscore, d⟩, ds, rfl⟩ := List.exists_cons_of_ne_nil h
  rw [spaced_cons]
  simp

theorem mem_spaced {c : Char} (h : c ∈ spaced ds) : c = '_' ∨ ∃ d ∈ ds.map Prod.snd, c = d.char := by
  obtain ⟨⟨underscore, d⟩, hd, hc⟩ := List.mem_flatMap.mp h
  cases underscore with
  | false => exact Or.inr ⟨d, List.mem_map_of_mem hd, List.mem_singleton.mp hc⟩
  | true =>
    rcases List.mem_cons.mp hc with rfl | hc
    · exact Or.inl rfl
    · exact Or.inr ⟨d, List.mem_map_of_mem hd, List.mem_singleton.mp hc⟩

/-- No letter of a base follows a digit of base ten. -/
theorem no_base_letter (h : ∀ d ∈ ds.map Prod.snd, d.value < 10) (hrest : Stops endsNumber rest) :
    ∀ c ∈ (spaced ds ++ rest).head?, c ∉ Lexer.baseLetters := by
  intro c hc
  cases ds with
  | nil => exact Lexer.not_mem_of_not_class (hrest c hc) (by decide)
  | cons d ds =>
    obtain ⟨underscore, d⟩ := d
    rw [spaced_cons] at hc
    cases underscore with
    | false =>
      obtain rfl : d.char = c := Option.some.inj hc
      exact Lexer.not_mem_of_class (Digit.isDigit_of_lt (h d List.mem_cons_self)) (by decide)
    | true =>
      obtain rfl : '_' = c := Option.some.inj hc
      decide

/-! ## Tokens in code -/

/-- A token opens with a digit of base ten and stands in a line. -/
theorem IsInteger.opens (h : IsInteger text n) :
    ∃ first more, text = first :: more ∧ first.isDigit = true ∧ '\n' ∉ more := by
  have hline (ds : List (Bool × Digit)) : '\n' ∉ spaced ds := by
    intro hmem
    rcases mem_spaced hmem with hmark | ⟨d, -, hd⟩
    · cases hmark
    · have hfeed := d.goesOn
      rw [← hd] at hfeed
      exact absurd hfeed (by decide)
  cases h with
  | decimal first more hbase hzero =>
    exact ⟨first.char, spaced more, rfl, Digit.isDigit_of_lt (hbase first List.mem_cons_self), hline more⟩
  | marked m hletter hne hbase =>
    rename_i letter ds
    refine ⟨'0', letter :: spaced ds, rfl, rfl, ?_⟩
    rw [List.mem_cons, not_or]
    refine ⟨?_, hline ds⟩
    rintro rfl
    cases m with
    | hexadecimal | octal | binary => exact absurd hletter (by decide)

/-- **A token is split off** the front of a text as an integer if nothing follows that goes on with it. -/
theorem split_integer (h : IsInteger text n) (hrest : Stops endsNumber rest) :
    Number.split (text ++ rest) = some (.integer, text, rest) := by
  have hsuffix (set : List Char) (hset : set.all endsNumber = true) : Number.takeOne set rest = ([], rest) :=
    Lexer.takeOne_eq_nil set hset hrest
  cases h with
  | decimal first more hbase hzero =>
    rw [List.forall_mem_cons] at hbase
    have hfirst : first.char.isDigit = true := Digit.isDigit_of_lt hbase.1
    have hradix : Number.radix ([first.char] ++ (spaced more ++ rest)) = none :=
      Lexer.radix_digits (List.cons_ne_nil _ _) (List.forall_mem_singleton.mpr hfirst) (no_base_letter hbase.2 hrest)
    rw [List.singleton_append] at hradix
    have hrun : Number.digitRun false (first.char :: (spaced more ++ rest)) = (first.char :: spaced more, rest) := by
      rw [Number.digitRun.eq_def]
      simp only [hfirst, if_true, digitRun_spaced hbase.2 hrest.digits]
    have hpoint : ¬∃ after, rest = '.' :: after := by
      rintro ⟨after, rfl⟩
      cases hrest '.' rfl
    rw [List.cons_append, Number.split_without_point hradix hrun hpoint, if_neg (List.cons_ne_nil _ _),
      Lexer.exponent_eq_none hrest, hsuffix _ (by decide)]
    simp
  | marked m hletter hne hbase =>
    rename_i letter ds
    obtain ⟨c, more, hcons⟩ := List.exists_cons_of_ne_nil (spaced_ne_nil hne)
    have hrun := radixRun_spaced hbase hrest
    have hradix : Number.radix ('0' :: letter :: (spaced ds ++ rest)) = some ('0' :: letter :: spaced ds, rest) := by
      rw [hcons] at hrun
      simp only [Number.radix, m.radixDigits_letter hletter, hcons, hrun, hsuffix ['l', 'L'] (by decide),
        List.append_nil]
    rw [List.cons_append, List.cons_append, Number.split, hradix]

/-- **A token is one lexeme** wherever it stands in a line. -/
theorem scans_integer (h : IsInteger text n) : Scans text [.integer (String.ofList text)] := by
  obtain ⟨first, more, hcons, hfirst, hline⟩ := h.opens
  have hdigits : Decimal.AreDigits [first] := List.forall_mem_singleton.mpr hfirst
  have htext : (Lexeme.integer (String.ofList text)).text.toList = [first] ++ more := by
    rw [Lexeme.text, String.toList_ofList, hcons, List.singleton_append]
  apply Lexer.scans_lexeme (htext.trans hcons.symm) (Lexer.isInline_number htext (List.cons_ne_nil _ _) hdigits hline)
  intro nesting rest hopen hrest
  have hsplit : Number.split (text ++ rest) = some (.integer, text, rest) :=
    split_integer h (hrest.stops (by decide))
  rw [hcons, List.cons_append, ← List.singleton_append] at hsplit ⊢
  exact Lexer.codeStep_number hopen .integer (List.cons_ne_nil _ _) hdigits hsplit

/-! ## Signs and brackets -/

/-- What stands around an integer. -/
inductive Wrapper where
  | plus
  | minus
  /-- Round brackets. `joined` says whether a joined line end comes right behind the opening one. -/
  | round (joined : Bool)
  deriving DecidableEq

namespace Wrapper

/-- The value of a number with signs and brackets around it. -/
def value : List Wrapper → ℤ → ℤ
  | [], n => n
  | minus :: ws, n => -value ws n
  | _ :: ws, n => value ws n

/-- The text with signs and brackets around a token. -/
def around : List Wrapper → List Char → List Char
  | [], token => token
  | plus :: ws, token => '+' :: around ws token
  | minus :: ws, token => '-' :: around ws token
  | round joined :: ws, token => '(' :: ((if joined then ['\\', '\n'] else []) ++ around ws token ++ [')'])

end Wrapper

/-- The tokens of signs and brackets around an integer. -/
inductive Lays (integer : String) : List Wrapper → Tokens → Prop
  | token {t : Token} (ht : t.lexeme = .integer integer) : Lays integer [] [t]
  | plus {t : Token} {ws : List Wrapper} {ts : Tokens} (ht : t.lexeme = .symbol "+") (h : Lays integer ws ts) :
      Lays integer (.plus :: ws) (t :: ts)
  | minus {t : Token} {ws : List Wrapper} {ts : Tokens} (ht : t.lexeme = .symbol "-") (h : Lays integer ws ts) :
      Lays integer (.minus :: ws) (t :: ts)
  | round {t u : Token} {ws : List Wrapper} {ts : Tokens} (ht : t.lexeme = .symbol "(") (hu : u.lexeme = .symbol ")")
      (h : Lays integer ws ts) : Lays integer (.round (!(joinsAhead ts).isEmpty) :: ws) (t :: (ts ++ [u]))

/-- The expressions that are read of signs and brackets around an integer. -/
inductive Wrapped (integer : String) : List Wrapper → Expr → Prop
  | token : Wrapped integer [] (.integer integer)
  | plus {ws : List Wrapper} {x : Expr} (h : Wrapped integer ws x) (text : String) :
      Wrapped integer (.plus :: ws) (.unary "+" x text)
  | minus {ws : List Wrapper} {x : Expr} (h : Wrapped integer ws x) (text : String) :
      Wrapped integer (.minus :: ws) (.unary "-" x text)
  | round {ws : List Wrapper} {x : Expr} (h : Wrapped integer ws x) : Wrapped integer (.round false :: ws) (.group x)
  | joined (ws : List Wrapper) (mark : String) : Wrapped integer (.round true :: ws) (.group (.other mark))

variable {integer : String} {ws : List Wrapper} {ts behind : Tokens} {x : Expr} {p : Place} {d : ℕ}

namespace Lays

theorem opens (h : Lays integer ws ts) (behind : Tokens) : Opens (ts ++ behind) := by
  cases h with
  | token ht => exact opens_unworded (by rw [List.singleton_append, lexeme?, ht]; rfl) (by simp [lexeme?, ht])
  | plus ht h => exact opens_symbol ht (by decide) _
  | minus ht h => exact opens_symbol ht (by decide) _
  | round ht hu h => exact opens_symbol ht (by decide) _

theorem joinItems_append (h : Lays integer ws ts) (behind : Tokens) : joinItems (ts ++ behind) = joinItems ts := by
  cases h <;> rfl

/-- **What stands between round brackets** is read as a group, unless a joined line end comes first. -/
theorem round_group {t u : Token} (ht : t.lexeme = .symbol "(") (hu : u.lexeme = .symbol ")") (h : Lays integer ws ts)
    (hread : (readers d).expression p.inside (ts ++ u :: behind) = .ok (x, u :: behind)) :
    (readers d).round p (t :: (ts ++ u :: behind)) = .ok (.group ((joinItems ts).head?.getD x), behind) := by
  have hopens := h.opens (u :: behind)
  have hclose : atSymbol ")" (ts ++ u :: behind) = false := atSymbol_of_not_closes ")" (by decide) hopens.not_closes
  have hstar : atSymbol "*" (ts ++ u :: behind) = false := beq_eq_false_iff_ne.mpr (hopens.ne rfl)
  have hyield : atWord "yield" (ts ++ u :: behind) = false := beq_eq_false_iff_ne.mpr (hopens.ne rfl)
  have helement : element (readers d).expression p.inside (ts ++ u :: behind) = .ok (x, u :: behind) := by
    rw [element, hstar, hyield]
    exact hread
  have hclauses := not_atComprehension hu behind
  have hend : atSymbol ")" (u :: behind) = true := beq_iff_eq.mpr hu
  rw [Readers.round, symbol_of_lexeme ht]
  simp only [bind, Except.bind, hclose, Bool.false_eq_true, if_false, helement, hclauses, hend, if_true, List.drop_one,
    List.tail_cons, h.joinItems_append]

/-- **Signs and brackets around an integer are read** one inside the other if nothing goes on with them. -/
theorem primary (h : Lays integer ws ts) : ∀ {d fuel : ℕ} {p : Place} {behind : Tokens}, Behind p behind →
    ts.length ≤ d + 1 → ts.length ≤ fuel →
    ∃ x, (readers d).primary p fuel (ts ++ behind) = .ok (x, behind) ∧ Wrapped integer ws x := by
  induction h with
  | token ht =>
    rename_i t
    intro d fuel p behind hbehind hd hfuel
    obtain ⟨fuel, rfl⟩ : ∃ n, fuel = n + 1 := ⟨fuel - 1, by simp at hfuel; omega⟩
    have hsign : ∀ mark ∈ signs, lexeme? ([t] ++ behind) ≠ .symbol mark := by simp [lexeme?, ht]
    have hatom : (readers d).atom p ([t] ++ behind) = .ok (.integer integer, behind) := by
      simp [Readers.atom, lexeme?, ht]
    exact ⟨_, primary_of_postfixed (opens (.token ht) behind) hsign (postfixed_of_atom hatom hbehind) fuel, .token⟩
  | plus ht h ih =>
    intro d fuel p behind hbehind hd hfuel
    obtain ⟨fuel, rfl⟩ : ∃ n, fuel = n + 1 := ⟨fuel - 1, by simp at hfuel; omega⟩
    rw [List.length_cons] at hd hfuel
    obtain ⟨x, hread, hx⟩ := ih hbehind (Nat.le_of_succ_le hd) (Nat.le_of_succ_le_succ hfuel)
    exact ⟨_, primary_sign (by decide) ht hread, hx.plus _⟩
  | minus ht h ih =>
    intro d fuel p behind hbehind hd hfuel
    obtain ⟨fuel, rfl⟩ : ∃ n, fuel = n + 1 := ⟨fuel - 1, by simp at hfuel; omega⟩
    rw [List.length_cons] at hd hfuel
    obtain ⟨x, hread, hx⟩ := ih hbehind (Nat.le_of_succ_le hd) (Nat.le_of_succ_le_succ hfuel)
    exact ⟨_, primary_sign (by decide) ht hread, hx.minus _⟩
  | round ht hu h ih =>
    rename_i t u ws ts
    intro d fuel p behind hbehind hd hfuel
    obtain ⟨fuel, rfl⟩ : ∃ n, fuel = n + 1 := ⟨fuel - 1, by simp at hfuel; omega⟩
    rw [List.length_cons, List.length_append, List.length_singleton] at hd
    obtain ⟨d, rfl⟩ : ∃ n, d = n + 1 := ⟨d - 1, by omega⟩
    have hclose : Behind p.inside (u :: behind) := behind_symbol hu (by decide) _ _
    have hlength : ts.length ≤ (ts ++ u :: behind).length + 1 := by
      rw [List.length_append]
      omega
    obtain ⟨x, hread, hx⟩ := ih (d := d) hclose (by omega) hlength
    have hinside : (readers (d + 1)).expression p.inside (ts ++ u :: behind) = .ok (x, u :: behind) :=
      complete_of_primary (h.opens _) hread hclose
    have hround := round_group ht hu h hinside
    have hopens : Opens (t :: (ts ++ u :: behind)) := opens_symbol ht (by decide) _
    have hsign : ∀ mark ∈ signs, lexeme? (t :: (ts ++ u :: behind)) ≠ .symbol mark := by simp [lexeme?, ht, signs]
    have hatom : (readers (d + 1)).atom p (t :: (ts ++ u :: behind))
        = .ok (.group ((joinItems ts).head?.getD x), behind) := by
      simp only [Readers.atom, lexeme?, ht, hround]
    have hgroup := primary_of_postfixed hopens hsign (postfixed_of_atom hatom hbehind) fuel
    rw [List.cons_append, List.append_assoc, List.singleton_append]
    refine ⟨_, hgroup, ?_⟩
    rw [joinItems]
    cases joinsAhead ts with
    | nil => exact hx.round
    | cons mark marks => exact .joined ws mark

/-- The same for a whole expression. -/
theorem expression (h : Lays integer ws ts) (hbehind : Behind p behind) :
    ∃ x, Source.expression p (ts ++ behind) = .ok (x, behind) ∧ Wrapped integer ws x := by
  have hlength : ts.length ≤ (ts ++ behind).length := by
    rw [List.length_append]
    omega
  obtain ⟨x, hread, hx⟩ := h.primary (d := (ts ++ behind).length) hbehind (Nat.le_succ_of_le hlength)
    (Nat.le_succ_of_le hlength)
  exact ⟨x, complete_of_primary (h.opens behind) hread hbehind, hx⟩

end Lays

/-! ## Texts with signs and brackets -/

/-- The lexemes of signs and brackets around an integer. -/
def Wrapper.lexemes (integer : String) : List Wrapper → List Lexeme
  | [] => [.integer integer]
  | plus :: ws => .symbol "+" :: lexemes integer ws
  | minus :: ws => .symbol "-" :: lexemes integer ws
  | round _ :: ws => .symbol "(" :: (lexemes integer ws ++ [.symbol ")"])

theorem joinsAhead_of_spells {ls : List Lexeme} (h : Spells ls ts) : joinsAhead ts = [] := by
  cases h with
  | nil => rfl
  | cons hfirst _ => exact hfirst.2

/-- Tokens without joined line ends in front of them. -/
theorem lays_of_spells (hws : Wrapper.round true ∉ ws) (h : Spells (Wrapper.lexemes integer ws) ts) :
    Lays integer ws ts := by
  induction ws generalizing ts with
  | nil =>
    rcases h with _ | ⟨⟨ht, -⟩, _ | _⟩
    exact .token ht
  | cons w ws ih =>
    rw [List.mem_cons, not_or] at hws
    cases w with
    | plus =>
      rcases h with _ | ⟨⟨ht, -⟩, h⟩
      exact .plus ht (ih hws.2 h)
    | minus =>
      rcases h with _ | ⟨⟨ht, -⟩, h⟩
      exact .minus ht (ih hws.2 h)
    | round joined =>
      rcases h with _ | ⟨⟨ht, -⟩, h⟩
      obtain ⟨inside, last, rfl, hinside, hlast⟩ := Spells.split h
      rcases hlast with _ | ⟨⟨hu, -⟩, _ | _⟩
      have hround := Lays.round ht hu (ih hws.2 hinside)
      rw [joinsAhead_of_spells hinside] at hround
      cases joined with
      | false => exact hround
      | true => exact absurd rfl hws.1

variable {token : List Char}

theorem arrowFree_around (h : IsInteger token n) (ws : List Wrapper) : Lexer.ArrowFree (Wrapper.around ws token) := by
  cases ws with
  | nil =>
    obtain ⟨first, more, rfl, hfirst, -⟩ := h.opens
    exact ⟨first, more, rfl, Lexer.ne_of_class hfirst rfl, Lexer.ne_of_class hfirst rfl⟩
  | cons w ws =>
    cases w with
    | plus => exact ⟨'+', _, rfl, by decide, by decide⟩
    | minus => exact ⟨'-', _, rfl, by decide, by decide⟩
    | round joined => exact ⟨'(', _, rfl, by decide, by decide⟩

theorem scans_around (h : IsInteger token n) (hws : Wrapper.round true ∉ ws) :
    Scans (Wrapper.around ws token) (Wrapper.lexemes (String.ofList token) ws) := by
  induction ws with
  | nil => exact scans_integer h
  | cons w ws ih =>
    rw [List.mem_cons, not_or] at hws
    cases w with
    | plus => exact Lexer.scans_plus (arrowFree_around h ws) (ih hws.2)
    | minus => exact Lexer.scans_minus (arrowFree_around h ws) (ih hws.2)
    | round joined =>
      cases joined with
      | false => exact Lexer.scans_round (ih hws.2)
      | true => exact absurd rfl hws.1

/-- **A text with signs and brackets around an integer** stands for the expression that they stand for. -/
theorem written_around (h : IsInteger token n) (hws : Wrapper.round true ∉ ws) :
    Written (Wrapper.around ws token) (Wrapped (String.ofList token) ws) where
  opens := arrowFree_around h ws
  reads := by
    refine ⟨_, scans_around h hws, fun hts _ => (lays_of_spells hws hts).opens _, ?_⟩
    intro d fuel p ts behind hts hbehind hd hfuel
    rw [hts.length_eq] at hd hfuel
    exact (lays_of_spells hws hts).primary hbehind hd hfuel

end ClassCli.Source
