import ClassCli.Proofs.Code.StringReading
import ClassCli.Proofs.Decimal.WrittenNumbers
import ClassCli.Proofs.Source.LineEnds
import ClassCli.Proofs.Text.Letters

/-!
# Lexemes of written code

Code that is written in one line consists of words, numbers, quoted texts and symbols, with a space here and there.
Each of them is split off the front of a text as it was written, if what follows it cannot go on with it.

* **`codeStep_word`**, **`codeStep_quote`** — words and quoted texts.
* **`codeStep_digits`**, **`codeStep_decimal`** — integers and other decimals.
-/

namespace ClassCli.Source.Lexer

open Code (escaped quote)
open Decimal (AreDigits WrittenDecimal)
open Decimal.Shortest (digitsOf)
open Text (afterStart isIdentifier isIdentifierPart isIdentifierStart startsWith)

variable {nesting : List Nesting} {c : Char} {s rest : List Char}

/-! ## Characters -/

/-- What follows cannot go on with what a test is for. -/
def Stops (test : Char → Bool) (rest : List Char) : Prop := ∀ c ∈ rest.head?, test c = false

theorem stops_cons {test : Char → Bool} (h : test c = false) : Stops test (c :: rest) := by
  intro d hd
  obtain rfl : c = d := by simpa using hd
  exact h

/-- A character of a class stands apart from one that is not in it. -/
theorem ne_of_class {test : Char → Bool} {c d : Char} (hc : test c = true) (hd : test d = false) : c ≠ d := by
  rintro rfl
  rw [hc] at hd
  cases hd

/-- A character of a class is no mark if no mark is in it. -/
theorem not_mem_of_class {test : Char → Bool} {marks : List Char} (hc : test c = true)
    (hmarks : marks.any test = false) : c ∉ marks :=
  fun hmem => List.any_eq_false.mp hmarks c hmem hc

/-- A character outside a class is no mark if all marks are in it. -/
theorem not_mem_of_not_class {test : Char → Bool} {marks : List Char} (hc : test c = false)
    (hmarks : marks.all test = true) : c ∉ marks := by
  intro hmem
  rw [List.all_eq_true.mp hmarks c hmem] at hc
  cases hc

/-- Brackets are open, and nothing else. -/
def IsOpen (nesting : List Nesting) : Prop := ∀ n ∈ nesting, n = .bracket

theorem IsOpen.not_endsField (h : IsOpen nesting) (c : Char) : ¬endsField nesting c := by
  rintro ⟨-, hfield⟩
  cases h _ (List.mem_of_mem_head? hfield)

/-- What is taken off a text in front of what stops it. -/
theorem span_of_stops {test : Char → Bool} {front : List Char} (hfront : ∀ c ∈ front, test c = true)
    (hrest : Stops test rest) :
    (front ++ rest).takeWhile test = front ∧ (front ++ rest).dropWhile test = rest := by
  rw [List.takeWhile_append_of_pos hfront, List.dropWhile_append_of_pos hfront]
  cases rest with
  | nil => exact ⟨List.append_nil _, rfl⟩
  | cons c more => simp [hrest c rfl]

/-! ## Words -/

theorem isIdentifierPart_of_start (h : isIdentifierStart c = true) : isIdentifierPart c = true := by
  unfold isIdentifierStart at h
  unfold isIdentifierPart
  split
  · rename_i hascii
    rw [if_pos hascii] at h
    exact Text.isAsciiNamePart_of_start h
  · rename_i hascii
    rw [if_neg hascii] at h
    rw [h, Bool.true_or]

/-- Digits are not at the start of a word. -/
theorem isDigit_of_start (h : isIdentifierStart c = true) : c.isDigit = false := by
  by_contra hdigit
  rw [Bool.not_eq_false] at hdigit
  obtain ⟨hlow, hhigh⟩ := Text.toNat_of_isDigit hdigit
  have hdigits : ∀ n < 10, isIdentifierStart (Char.ofNat (48 + n)) = false := by decide
  have hstart := hdigits (c.toNat - 48) (by omega)
  rw [Nat.add_sub_cancel' hlow, Char.ofNat_toNat, h] at hstart
  cases hstart

/-- What ends a word: quotes do, but a letter in front of them can be part of a string. -/
def endsWord (c : Char) : Bool := isIdentifierPart c || isQuote c

theorem Stops.part (h : Stops endsWord rest) : Stops isIdentifierPart rest :=
  fun c hc => (Bool.or_eq_false_iff.mp (h c hc)).1

theorem Stops.quote (h : Stops endsWord rest) : Stops isQuote rest :=
  fun c hc => (Bool.or_eq_false_iff.mp (h c hc)).2

theorem Stops.marker (h : Stops endsWord rest) : Stops isMarker rest := by
  intro c hc
  by_contra hmarker
  rw [Bool.not_eq_false, isMarker, decide_eq_true_iff] at hmarker
  exact not_mem_of_not_class (h.part c hc) (by decide) hmarker

/-- No string opens where no quotes follow the letters. -/
theorem opening_eq_none (h : Stops isQuote (s.dropWhile isMarker)) : opening s = none := by
  rw [opening_eq]
  cases hdrop : s.dropWhile isMarker with
  | nil => rfl
  | cons quote after =>
    have hquote : isQuote quote = false := h quote (by rw [hdrop]; rfl)
    simp [hquote]

theorem opening_word {word : List Char} (hword : ∀ c ∈ word, isIdentifierPart c = true)
    (hrest : Stops endsWord rest) : opening (word ++ rest) = none := by
  apply opening_eq_none
  rw [List.dropWhile_append]
  split
  · have hdrop : rest.dropWhile isMarker = rest := (span_of_stops (List.forall_mem_nil _) hrest.marker).2
    rw [hdrop]
    exact hrest.quote
  · rename_i hmore
    intro c hc
    rw [List.head?_append_of_ne_nil _ (by simpa using hmore)] at hc
    have hmem : c ∈ word := (List.dropWhile_sublist _).subset (List.mem_of_mem_head? hc)
    by_contra hquote
    rw [Bool.not_eq_false] at hquote
    rcases eq_of_isQuote hquote with rfl | rfl | rfl
    all_goals exact absurd (hword _ hmem) (by decide)

/-- No digits open with anything else. -/
theorem digitRun_eq_nil (h : c.isDigit = false) : Number.digitRun false (c :: rest) = ([], c :: rest) := by
  rw [Number.digitRun.eq_def]
  simp [h]

/-- No number opens with anything but a digit or a point. -/
theorem split_eq_none (hdigit : c.isDigit = false) (hpoint : c ≠ '.') : Number.split (c :: rest) = none := by
  have hradix : Number.radix (c :: rest) = none := by
    apply Number.radix_eq_none
    rintro h
    obtain rfl := Option.some.inj h
    cases hdigit
  have hafter : ¬∃ after, c :: rest = '.' :: after := by
    rintro ⟨after, h⟩
    exact hpoint (List.cons.inj h).1
  rw [Number.split_without_point hradix (digitRun_eq_nil hdigit) hafter, if_pos rfl]

/-- **A word is split off** if nothing follows that goes on with it. -/
theorem codeStep_word (hopen : IsOpen nesting) {word : List Char} (hword : isIdentifier word = true)
    (hrest : Stops endsWord rest) :
    codeStep nesting (word ++ rest) = ⟨.word (String.ofList word), nesting, rest⟩ := by
  match word, hword with
  | c :: more, hword =>
    rw [isIdentifier, Bool.and_eq_true, List.all_eq_true] at hword
    obtain ⟨hstart, hmore⟩ := hword
    have hparts : ∀ d ∈ c :: more, isIdentifierPart d = true :=
      List.forall_mem_cons.mpr ⟨isIdentifierPart_of_start hstart, hmore⟩
    obtain ⟨htake, hdrop⟩ := span_of_stops hmore hrest.part
    have hopening : opening (c :: (more ++ rest)) = none := opening_word hparts hrest
    show codeStep nesting (c :: (more ++ rest)) = _
    rw [codeStep_plain hopening (hopen.not_endsField c)]
    unfold plainStep
    rw [split_eq_none (isDigit_of_start hstart) (ne_of_class hstart (by decide))]
    dsimp only
    rw [if_pos hstart, htake, hdrop]

/-! ## Symbols -/

/-- A symbol that is split off, whatever stands in front of the place. -/
theorem codeStep_symbol (hopen : IsOpen nesting) {mark : String} (hopening : opening (c :: rest) = none)
    (hnumber : Number.split (c :: rest) = none) (hstart : isIdentifierStart c = false)
    (hmark : symbol? (c :: rest) = some mark) :
    codeStep nesting (c :: rest)
      = ⟨.symbol mark, plainStep.nestingAfter mark nesting, (c :: rest).drop mark.length⟩ := by
  rw [codeStep_plain hopening (hopen.not_endsField c)]
  unfold plainStep
  rw [hnumber]
  dsimp only
  rw [if_neg (by rw [hstart]; exact Bool.false_ne_true), hmark]

theorem codeStep_openRound (hopen : IsOpen nesting) (rest : List Char) :
    codeStep nesting ('(' :: rest) = ⟨.symbol "(", .bracket :: nesting, rest⟩ :=
  codeStep_symbol hopen rfl rfl rfl rfl

theorem codeStep_closeRound (hopen : IsOpen nesting) (rest : List Char) :
    codeStep (.bracket :: nesting) (')' :: rest) = ⟨.symbol ")", nesting, rest⟩ :=
  codeStep_symbol (List.forall_mem_cons.mpr ⟨rfl, hopen⟩) rfl rfl rfl rfl

theorem codeStep_openSquare (hopen : IsOpen nesting) (rest : List Char) :
    codeStep nesting ('[' :: rest) = ⟨.symbol "[", .bracket :: nesting, rest⟩ :=
  codeStep_symbol hopen rfl rfl rfl rfl

theorem codeStep_closeSquare (hopen : IsOpen nesting) (rest : List Char) :
    codeStep (.bracket :: nesting) (']' :: rest) = ⟨.symbol "]", nesting, rest⟩ :=
  codeStep_symbol (List.forall_mem_cons.mpr ⟨rfl, hopen⟩) rfl rfl rfl rfl

theorem codeStep_comma (hopen : IsOpen nesting) (rest : List Char) :
    codeStep nesting (',' :: rest) = ⟨.symbol ",", nesting, rest⟩ :=
  codeStep_symbol hopen rfl rfl rfl rfl

theorem codeStep_equals (hopen : IsOpen nesting) (hrest : Stops (· == '=') rest) :
    codeStep nesting ('=' :: rest) = ⟨.symbol "=", nesting, rest⟩ := by
  apply codeStep_symbol hopen rfl rfl rfl
  cases rest with
  | nil => rfl
  | cons d more =>
    have hd : '=' ≠ d := by
      rintro rfl
      cases hrest '=' rfl
    simp [symbol?, symbols, startsWith, afterStart, hd]

theorem codeStep_minus (hopen : IsOpen nesting) (hrest : Stops (fun c => c == '=' || c == '>') rest) :
    codeStep nesting ('-' :: rest) = ⟨.symbol "-", nesting, rest⟩ := by
  apply codeStep_symbol hopen rfl rfl rfl
  cases rest with
  | nil => rfl
  | cons d more =>
    have hd := hrest d rfl
    rw [Bool.or_eq_false_iff, beq_eq_false_iff_ne, beq_eq_false_iff_ne] at hd
    simp [symbol?, symbols, startsWith, afterStart, hd.1.symm, hd.2.symm]

theorem codeStep_plus (hopen : IsOpen nesting) (hrest : Stops (· == '=') rest) :
    codeStep nesting ('+' :: rest) = ⟨.symbol "+", nesting, rest⟩ := by
  apply codeStep_symbol hopen rfl rfl rfl
  cases rest with
  | nil => rfl
  | cons d more =>
    have hd : '=' ≠ d := by
      rintro rfl
      cases hrest '=' rfl
    simp [symbol?, symbols, startsWith, afterStart, hd]

theorem codeStep_point (hopen : IsOpen nesting) (hrest : Stops (fun c => c == '.' || c.isDigit) rest) :
    codeStep nesting ('.' :: rest) = ⟨.symbol ".", nesting, rest⟩ := by
  cases rest with
  | nil => exact codeStep_symbol hopen rfl rfl rfl rfl
  | cons d more =>
    have hd := hrest d rfl
    rw [Bool.or_eq_false_iff, beq_eq_false_iff_ne] at hd
    have hnumber : Number.split ('.' :: d :: more) = none := by
      have hradix : Number.radix ('.' :: d :: more) = none := Number.radix_eq_none (by simp)
      have hpoint : Number.digitRun false ('.' :: d :: more) = ([], '.' :: d :: more) := digitRun_eq_nil rfl
      simp only [Number.split, hradix, hpoint, digitRun_eq_nil hd.2]
    apply codeStep_symbol hopen rfl hnumber rfl
    simp [symbol?, symbols, startsWith, afterStart, hd.1.symm]

/-! ## Quoted texts -/

/-- How quoted texts are delimited. -/
def singleQuoted : Quoting := ⟨'\x27', false, false⟩

theorem opening_quoted {inside : List Char} (hrest : Stops isQuote rest) :
    opening ('\x27' :: (inside.flatMap escaped ++ '\x27' :: rest))
      = some ([], singleQuoted, inside.flatMap escaped ++ '\x27' :: rest) := by
  have hthree : afterStart ['\x27', '\x27'] (inside.flatMap escaped ++ '\x27' :: rest) = none := by
    cases inside with
    | nil =>
      show afterStart ['\x27'] rest = none
      exact Text.afterStart_eq_none fun hquote => absurd (hrest '\x27' hquote) (by decide)
    | cons c more =>
      rw [List.flatMap_cons]
      rcases Code.StringReading.escaped_cases c with ⟨letter, hc, -⟩ | ⟨hc, -, hquote, -⟩
      · rw [hc]
        rfl
      · rw [hc]
        exact Text.afterStart_eq_none (by simpa using hquote)
  have hdrop : ('\x27' :: (inside.flatMap escaped ++ '\x27' :: rest)).dropWhile isMarker
      = '\x27' :: (inside.flatMap escaped ++ '\x27' :: rest) := rfl
  rw [opening_eq, hdrop]
  dsimp only
  rw [hthree]
  rfl

/-- No escape is written with a backtick. -/
theorem ne_of_escaped {letter : Char} (h : escaped c = ['\\', letter]) : letter ≠ '\x60' := by
  rintro rfl
  unfold escaped at h
  split_ifs at h
  all_goals simp at h

theorem body_quoted {inside : List Char} (hnull : '\x00' ∉ inside) (fresh : Bool) :
    body singleQuoted fresh (inside.flatMap escaped ++ '\x27' :: rest)
      = some (inside.flatMap escaped ++ ['\x27'], rest) := by
  induction inside generalizing fresh with
  | nil => exact body_close (by decide) (by decide) rfl
  | cons c more ih =>
    rw [List.mem_cons, not_or] at hnull
    rw [List.flatMap_cons, List.append_assoc, List.append_assoc]
    rcases Code.StringReading.escaped_cases c with ⟨letter, hc, hreturn, -, -, -⟩ | ⟨hc, hslash, hquote, hfeed, hreturn⟩
    · have hpair : pairs singleQuoted letter = true := by simpa [pairs, singleQuoted] using ne_of_escaped hc
      rw [hc]
      show body singleQuoted fresh ('\\' :: letter :: (more.flatMap escaped ++ '\x27' :: rest)) = _
      rw [body_pair hreturn hpair, ih hnull.2]
      rfl
    · have hruns : Runs singleQuoted fresh c (more.flatMap escaped ++ '\x27' :: rest) :=
        ⟨Ne.symm hnull.1, hslash, startsWith_marks_of_ne hquote _, by rw [decide_eq_false hfeed]; rfl⟩
      rw [hc]
      show body singleQuoted fresh (c :: (more.flatMap escaped ++ '\x27' :: rest)) = _
      rw [body_runs hruns, ih hnull.2]
      rfl

/-- **A quoted text is split off** if it holds no null character and no quotes follow. -/
theorem codeStep_quote {value : String} (hnull : '\x00' ∉ value.toList) (hrest : Stops isQuote rest) :
    codeStep nesting ((quote value).toList ++ rest) = ⟨.string (quote value), nesting, rest⟩ := by
  have htext : (quote value).toList ++ rest = '\x27' :: (value.toList.flatMap escaped ++ '\x27' :: rest) := by
    simp [quote]
  rw [htext, codeStep_string (opening_quoted hrest) rfl, body_quoted hnull]
  rfl

/-! ## Numbers -/

/-- What goes on with a number or a word. -/
def endsNumber (c : Char) : Bool := endsWord c || c == '.'

/-- A character that goes on with a number does not follow. -/
theorem Stops.ne (h : Stops endsNumber rest) {d : Char} (hd : endsNumber d = true) : ∀ c ∈ rest.head?, c ≠ d :=
  fun _ hc => (ne_of_class hd (h _ hc)).symm

theorem endsNumber_of_isDigit (h : c.isDigit = true) : endsNumber c = true := by
  have hpart : isIdentifierPart c = true := by
    obtain ⟨hlow, hhigh⟩ := Text.toNat_of_isDigit h
    have hdigits : ∀ n < 10, isIdentifierPart (Char.ofNat (48 + n)) = true := by decide
    have hpart := hdigits (c.toNat - 48) (by omega)
    rwa [Nat.add_sub_cancel' hlow, Char.ofNat_toNat] at hpart
  rw [endsNumber, endsWord, hpart]
  rfl

/-- Nothing is taken of a set that goes on with a number. -/
theorem takeOne_eq_nil (set : List Char) (hset : set.all endsNumber = true) (h : Stops endsNumber rest) :
    Number.takeOne set rest = ([], rest) := by
  cases rest with
  | nil => rfl
  | cons c more =>
    rw [Number.takeOne, if_neg (not_mem_of_not_class (h c rfl) hset)]

/-- Digits are taken up to what is no digit. -/
theorem digitRun_digits {digits : List Char} (hdigits : AreDigits digits)
    (hrest : ∀ c ∈ rest.head?, c.isDigit = false ∧ c ≠ '_') (afterDigit : Bool) :
    Number.digitRun afterDigit (digits ++ rest) = (digits, rest) := by
  induction digits generalizing afterDigit with
  | nil =>
    cases rest with
    | nil => rfl
    | cons c more =>
      obtain ⟨hdigit, hmark⟩ := hrest c rfl
      show Number.digitRun afterDigit (c :: more) = _
      rw [Number.digitRun.eq_def]
      simp [hdigit, hmark]
  | cons d more ih =>
    have hd : d.isDigit = true := hdigits d List.mem_cons_self
    rw [List.cons_append, Number.digitRun.eq_def]
    simp only [hd, if_true, ih fun c hc => hdigits c (List.mem_cons_of_mem d hc)]

theorem Stops.digits (h : Stops endsNumber rest) : ∀ c ∈ rest.head?, c.isDigit = false ∧ c ≠ '_' := by
  intro c hc
  refine ⟨?_, h.ne (by decide) c hc⟩
  by_contra hdigit
  rw [Bool.not_eq_false] at hdigit
  exact absurd (h c hc) (by rw [endsNumber_of_isDigit hdigit]; decide)

/-- The letters of bases. -/
def baseLetters : List Char := ['x', 'X', 'o', 'O', 'b', 'B']

theorem radixDigits_eq_none (h : c ∉ baseLetters) : Number.radixDigits c = none := by
  simp only [baseLetters, List.mem_cons, List.not_mem_nil, or_false, not_or] at h
  obtain ⟨hx, hX, ho, hO, hb, hB⟩ := h
  simp [Number.radixDigits, hx, hX, ho, hO, hb, hB]

/-- Digits are in base ten if no letter of another base follows. -/
theorem radix_digits {digits : List Char} (hne : digits ≠ []) (hdigits : AreDigits digits)
    (hrest : ∀ c ∈ rest.head?, c ∉ baseLetters) : Number.radix (digits ++ rest) = none := by
  obtain ⟨d, more, rfl⟩ := List.exists_cons_of_ne_nil hne
  have hsecond : ∀ c ∈ (more ++ rest).head?, Number.radixDigits c = none := by
    intro c hc
    apply radixDigits_eq_none
    cases more with
    | nil => exact hrest c hc
    | cons e more =>
      obtain rfl := Option.some.inj hc
      exact not_mem_of_class (hdigits e (by simp)) (by decide)
  rw [List.cons_append]
  cases hbehind : more ++ rest with
  | nil =>
    unfold Number.radix
    split
    · rename_i h
      cases h
    · rfl
  | cons letter behind =>
    have hletter : Number.radixDigits letter = none := hsecond letter (by rw [hbehind]; rfl)
    unfold Number.radix
    split
    · rename_i h
      cases h
      rw [hletter]
    · rfl

theorem opening_digit (h : c.isDigit = true) : opening (c :: s) = none := by
  have hmarker : isMarker c = false := by
    by_contra hmarker
    rw [Bool.not_eq_false, isMarker, decide_eq_true_iff] at hmarker
    exact not_mem_of_class h (by decide) hmarker
  apply opening_eq_none
  rw [List.dropWhile_cons, if_neg (by rw [hmarker]; decide)]
  apply stops_cons
  by_contra hquote
  rw [Bool.not_eq_false] at hquote
  rcases eq_of_isQuote hquote with rfl | rfl | rfl
  all_goals exact absurd h (by decide)

/-- The lexeme of a number. -/
def numeral : Number.Kind → List Char → Lexeme
  | .integer, text => .integer (String.ofList text)
  | .float, text => .float (String.ofList text)

/-- A number is split off as its kind says. -/
theorem codeStep_number (hopen : IsOpen nesting) {digits behind text : List Char} (kind : Number.Kind)
    (hne : digits ≠ []) (hdigits : AreDigits digits)
    (hsplit : Number.split (digits ++ behind) = some (kind, text, rest)) :
    codeStep nesting (digits ++ behind) = ⟨numeral kind text, nesting, rest⟩ := by
  obtain ⟨d, more, rfl⟩ := List.exists_cons_of_ne_nil hne
  rw [List.cons_append] at hsplit ⊢
  rw [codeStep_plain (opening_digit (hdigits d List.mem_cons_self)) (hopen.not_endsField d)]
  unfold plainStep
  rw [hsplit]
  cases kind <;> rfl

theorem exponent_eq_none (h : Stops endsNumber rest) : Number.exponent rest = none := by
  rw [Number.exponent, takeOne_eq_nil _ (by decide) h]

/-- **Digits are split off** as an integer if nothing follows that goes on with it. -/
theorem codeStep_digits (hopen : IsOpen nesting) {digits : List Char} (hne : digits ≠ []) (hdigits : AreDigits digits)
    (hrest : Stops endsNumber rest) :
    codeStep nesting (digits ++ rest) = ⟨.integer (String.ofList digits), nesting, rest⟩ := by
  have hradix : Number.radix (digits ++ rest) = none := by
    apply radix_digits hne hdigits
    intro c hc
    exact not_mem_of_not_class (hrest c hc) (by decide)
  have hpoint : ¬∃ after, rest = '.' :: after := by
    rintro ⟨after, rfl⟩
    cases hrest '.' rfl
  apply codeStep_number hopen .integer hne hdigits
  rw [Number.split_without_point hradix (digitRun_digits hdigits hrest.digits false) hpoint, if_neg hne,
    exponent_eq_none hrest, takeOne_eq_nil _ (by decide) hrest]
  simp

/-- The exponent of a decimal is taken with its sign. -/
theorem exponent_signed (hrest : Stops endsNumber rest) (i : ℤ) :
    Number.exponent ('e' :: (WrittenDecimal.signed i ++ rest)) = some ('e' :: WrittenDecimal.signed i, rest) := by
  have hdigits := Decimal.areDigits_digitsOf i.natAbs
  obtain ⟨d, more, hcons⟩ := List.exists_cons_of_ne_nil (Decimal.digitsOf_ne_nil i.natAbs)
  have hrun : Number.digitRun false (d :: (more ++ rest)) = (d :: more, rest) := by
    rw [hcons] at hdigits
    exact digitRun_digits hdigits hrest.digits false
  have hsign : Number.takeOne ['+', '-'] (WrittenDecimal.signed i ++ rest)
      = (if i < 0 then ['-'] else [], d :: (more ++ rest)) := by
    rw [WrittenDecimal.signed, hcons]
    split
    · rfl
    · have hd : d ∉ ['+', '-'] := by
        rw [hcons] at hdigits
        exact not_mem_of_class (hdigits d List.mem_cons_self) (by decide)
      show Number.takeOne ['+', '-'] (d :: (more ++ rest)) = _
      rw [Number.takeOne, if_neg hd]
  have hmark : Number.takeOne ['e', 'E'] ('e' :: (WrittenDecimal.signed i ++ rest))
      = (['e'], WrittenDecimal.signed i ++ rest) := rfl
  rw [Number.exponent, hmark]
  dsimp only
  rw [hsign]
  dsimp only
  rw [hrun, WrittenDecimal.signed, hcons]
  simp

/-- A floating-point number is taken with its exponent. -/
theorem float_power (hrest : Stops endsNumber rest) (start : List Char) (power : Option ℤ) :
    Number.float start (power.elim [] ('e' :: WrittenDecimal.signed ·) ++ rest)
      = (.float, start ++ power.elim [] ('e' :: WrittenDecimal.signed ·), rest) := by
  unfold Number.float
  cases power with
  | none =>
    rw [Option.elim_none, List.nil_append, exponent_eq_none hrest]
    simp [takeOne_eq_nil ['j', 'J'] (by decide) hrest]
  | some i =>
    rw [Option.elim_some, List.cons_append, exponent_signed hrest]
    simp [takeOne_eq_nil ['j', 'J'] (by decide) hrest]

/-- Digits with a point behind them and perhaps more digits. -/
theorem split_with_point {digits fraction after behind : List Char} (hne : digits ≠ [])
    (hradix : Number.radix s = none) (hdigits : Number.digitRun false s = (digits, '.' :: after))
    (hfraction : Number.digitRun false after = (fraction, behind)) :
    Number.split s = some (Number.float (digits ++ '.' :: fraction) behind) := by
  obtain ⟨d, more, rfl⟩ := List.exists_cons_of_ne_nil hne
  rw [Number.split, hradix]
  simp only [hdigits, hfraction]

/-- **A decimal with a point or an exponent is split off** if nothing follows that goes on with it. -/
theorem codeStep_decimal (hopen : IsOpen nesting) {w : WrittenDecimal} (hform : w.fraction.isSome ∨ w.power.isSome)
    (hrest : Stops endsNumber rest) :
    codeStep nesting (w.chars ++ rest) = ⟨.float (String.ofList w.chars), nesting, rest⟩ := by
  obtain ⟨whole, fraction, power, hne, hdigits⟩ := w
  have hwhole : AreDigits whole := fun c hc => hdigits c (List.mem_append_left _ hc)
  -- what stands behind the first digits
  have hbehind (c : Char) (after : List Char) (hc : c ∉ baseLetters ∧ c.isDigit = false ∧ c ≠ '_') :
      Number.radix (whole ++ c :: after) = none
        ∧ Number.digitRun false (whole ++ c :: after) = (whole, c :: after) := by
    constructor
    · exact radix_digits hne hwhole fun d hd => by
        obtain rfl := Option.some.inj hd
        exact hc.1
    · exact digitRun_digits hwhole (fun d hd => by
        obtain rfl := Option.some.inj hd
        exact hc.2) false
  rw [WrittenDecimal.chars, List.append_assoc, List.append_assoc]
  apply codeStep_number hopen .float hne hwhole
  dsimp only at hform ⊢
  cases fraction with
  | some digits =>
    have hfraction : AreDigits digits := fun c hc => hdigits c (List.mem_append_right _ hc)
    have hrun : Number.digitRun false (digits ++ (power.elim [] ('e' :: WrittenDecimal.signed ·) ++ rest))
        = (digits, power.elim [] ('e' :: WrittenDecimal.signed ·) ++ rest) := by
      apply digitRun_digits hfraction
      cases power with
      | none => exact hrest.digits
      | some i => simp
    obtain ⟨hradix, hfirst⟩ := hbehind '.'
      (digits ++ (power.elim [] ('e' :: WrittenDecimal.signed ·) ++ rest)) (by decide)
    have hsplit := split_with_point hne hradix hfirst hrun
    rwa [float_power hrest] at hsplit
  | none =>
    obtain ⟨i, rfl⟩ : ∃ i, power = some i := Option.isSome_iff_exists.mp (by simpa using hform)
    obtain ⟨hradix, hfirst⟩ := hbehind 'e' (WrittenDecimal.signed i ++ rest) (by decide)
    have hpoint : ¬∃ after, 'e' :: (WrittenDecimal.signed i ++ rest) = '.' :: after := by
      rintro ⟨after, h⟩
      exact absurd (List.cons.inj h).1 (by decide)
    rw [Option.elim_none, Option.elim_some, List.nil_append, List.cons_append,
      Number.split_without_point hradix hfirst hpoint, if_neg hne, exponent_signed hrest, Option.isSome_some, if_pos rfl]
    rw [List.append_nil]
    exact congrArg some (float_power hrest whole (some i))

end ClassCli.Source.Lexer
