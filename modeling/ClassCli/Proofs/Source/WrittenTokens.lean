import ClassCli.Proofs.Code.Indentation
import ClassCli.Proofs.Source.WrittenLexemes
import Mathlib.Data.List.Forall2

/-!
# Tokens of written code

Code that is written in one line is put together from lexemes. How such a text is split into tokens does not depend on
what is around it, if a bracket, a comma or the end of the line follows.

* **`Goes`** — the lexemes between two places in a line, and **`Goes.trans`** — one stretch after the other.
* **`Scans`** — the lexemes of a text that stands in a line.
* **`scans_list`**, **`scans_call`**, **`scans_methodCall`** — what is put together with brackets.
-/

namespace ClassCli.Source

open Code (quote)
open Decimal (WrittenDecimal)
open Decimal.Shortest (digitsOf)

/-! ## Lexemes and tokens -/

/-- Tokens of certain lexemes with no joined line ends in front of them. -/
def Spells (ls : List Lexeme) (ts : Tokens) : Prop := List.Forall₂ (fun l t => t.lexeme = l ∧ t.joins = []) ls ts

theorem Spells.append {ls ms : List Lexeme} {ts us : Tokens} (hls : Spells ls ts) (hms : Spells ms us) :
    Spells (ls ++ ms) (ts ++ us) := List.rel_append hls hms

theorem Spells.length_eq {ls : List Lexeme} {ts : Tokens} (h : Spells ls ts) : ls.length = ts.length :=
  List.Forall₂.length_eq h

/-- The tokens of a sequence come one after the other. -/
theorem Spells.split {ls ms : List Lexeme} {ts : Tokens} (h : Spells (ls ++ ms) ts) :
    ∃ us vs, ts = us ++ vs ∧ Spells ls us ∧ Spells ms vs := by
  induction ls generalizing ts with
  | nil => exact ⟨[], ts, rfl, .nil, h⟩
  | cons l ls ih =>
    rcases h with _ | ⟨hl, h⟩
    obtain ⟨us, vs, rfl, hus, hvs⟩ := ih h
    exact ⟨_ :: us, vs, rfl, .cons hl hus, hvs⟩

/-- Lexemes with commas between them. -/
def commas : List (List Lexeme) → List Lexeme
  | [] => []
  | [ls] => ls
  | ls :: next :: rest => ls ++ .symbol "," :: commas (next :: rest)

namespace Lexer

variable {nesting nesting' nesting'' : List Nesting} {s behind rest gap : List Char} {ls ms : List Lexeme}

/-! ## From one place in a line to another -/

/-- Between two places in a line there are tokens of certain lexemes. -/
def Goes (nesting : List Nesting) (s : List Char) (ls : List Lexeme) (nesting' : List Nesting) (rest : List Char) :
    Prop :=
  ∀ line fuel, s.length < fuel → ∃ ts fuel', Spells ls ts ∧ rest.length < fuel'
    ∧ tokensFrom fuel nesting line s = ts ++ tokensFrom fuel' nesting' line rest

theorem Goes.trans (h : Goes nesting s ls nesting' behind) (h' : Goes nesting' behind ms nesting'' rest) :
    Goes nesting s (ls ++ ms) nesting'' rest := by
  intro line fuel hfuel
  obtain ⟨ts, fuel', hts, hfuel', htokens⟩ := h line fuel hfuel
  obtain ⟨us, fuel'', hus, hfuel'', hmore⟩ := h' line fuel' hfuel'
  exact ⟨ts ++ us, fuel'', hts.append hus, hfuel'', by rw [htokens, hmore, List.append_assoc]⟩

/-- Nothing or a space. -/
def IsSpacing (gap : List Char) : Prop := gap = [] ∨ gap = [' ']

/-- The characters that can open a gap. -/
def gapMarks : List Char := ['\n', ' ', '\t', '\r', '\x0c', '#', '\\', '\x0b', '\ufeff', '\u2060', '\u200b']

theorem scanFrom_of_not_mem {c : Char} (h : c ∉ gapMarks) (gap : Gap) (s : List Char) :
    Gap.scanFrom false gap (c :: s) = (gap, c :: s) := by
  simp only [gapMarks, List.mem_cons, List.not_mem_nil, or_false, not_or] at h
  obtain ⟨hfeed, hspace, htab, hreturn, hform, hcomment, hslash, hfiller⟩ := h
  rw [Gap.scanFrom.eq_def]
  simp [hfeed, hspace, htab, hreturn, hform, hcomment, hslash, Gap.isFiller, hfiller]

theorem scan_space (s : List Char) : Gap.scan (' ' :: s) = Gap.scanFrom false ⟨[' '], [], false, 1⟩ s := by
  rw [Gap.scan, Gap.scanFrom.eq_def]
  rfl

/-- A lexeme that stands in a line and opens no gap. -/
structure IsInline (l : Lexeme) : Prop where
  opens : ∃ c more, l.text.toList = c :: more ∧ c ∉ gapMarks
  line : '\n' ∉ l.text.toList

/-- **One lexeme is one token**, whatever spacing stands in front of it. -/
theorem goes_lexeme {l : Lexeme} (hl : IsInline l) (hgap : IsSpacing gap) (hopen : IsOpen nesting)
    (hstep : codeStep nesting (l.text.toList ++ rest) = ⟨l, nesting', rest⟩) :
    Goes nesting (gap ++ (l.text.toList ++ rest)) [l] nesting' rest := by
  intro line fuel hfuel
  obtain ⟨⟨c, more, hfirst, hc⟩, hline⟩ := hl
  obtain ⟨fuel, rfl⟩ : ∃ n, fuel = n + 1 := ⟨fuel - 1, by omega⟩
  have hscan : ∃ found : Gap, Gap.scan (gap ++ (l.text.toList ++ rest)) = (found, l.text.toList ++ rest)
      ∧ found.crosses = false ∧ found.joins = [] ∧ '\n' ∉ found.chars := by
    rw [hfirst]
    rcases hgap with rfl | rfl
    · exact ⟨.empty, scanFrom_of_not_mem hc _ _, rfl, rfl, by decide⟩
    · exact ⟨⟨[' '], [], false, 1⟩, (scan_space _).trans (scanFrom_of_not_mem hc _ _), rfl, rfl, by decide⟩
  obtain ⟨found, hscan, hcrosses, hjoins, hfound⟩ := hscan
  have hmore : (l.text.toList ++ rest).isEmpty = false := by rw [hfirst]; rfl
  have hahead : gapAhead (gap ++ (l.text.toList ++ rest)) = found := by
    rw [gapAhead, hscan, hmore]
    rfl
  have hbreaks : lineBreaks nesting line found = [] := by rw [lineBreaks, hcrosses]; rfl
  have hfeeds {t : List Char} (ht : '\n' ∉ t) : lineFeeds t = 0 := List.count_eq_zero.mpr ht
  refine ⟨[codeToken line found l], fuel, .cons ⟨rfl, ?_⟩ .nil, ?_, ?_⟩
  · rw [codeToken, hjoins]
    exact ite_self _
  · rw [hfirst, List.length_append, List.length_append, List.length_cons] at hfuel
    omega
  · have htext : ∀ q outer, nesting ≠ .text q :: outer := by
      rintro q outer rfl
      cases hopen _ List.mem_cons_self
    have hspecification : ∀ outer, nesting ≠ .specification :: outer := by
      rintro outer rfl
      cases hopen _ List.mem_cons_self
    rw [tokensFrom_code _ _ _ htext hspecification]
    simp only [hahead, hscan, hmore, hbreaks, hstep, codeToken, hfeeds hfound, hfeeds hline]
    rfl

/-! ## Texts that stand in a line -/

/-- A bracket, a comma or nothing follows. -/
def Ends (rest : List Char) : Prop := ∀ c ∈ rest.head?, c ∈ [',', ')', ']']

theorem Ends.stops (h : Ends rest) {test : Char → Bool} (htest : [',', ')', ']'].any test = false) :
    Stops test rest := by
  intro c hc
  by_contra hgoes
  exact not_mem_of_class (Bool.not_eq_false _ ▸ hgoes) htest (h c hc)

theorem ends_nil : Ends [] := by
  intro c hc
  cases hc

theorem ends_cons {c : Char} (h : c ∈ [',', ')', ']']) (rest : List Char) : Ends (c :: rest) := by
  intro d hd
  obtain rfl := Option.some.inj hd
  exact h

/-- A text is split into certain lexemes wherever it stands in a line, if a bracket, a comma or nothing follows. -/
def Scans (s : List Char) (ls : List Lexeme) : Prop :=
  ∀ ⦃nesting gap rest⦄, IsOpen nesting → IsSpacing gap → Ends rest → Goes nesting (gap ++ (s ++ rest)) ls nesting rest

/-- A text that is a lexeme by itself. -/
theorem scans_lexeme {l : Lexeme} (hs : l.text.toList = s) (hl : IsInline l)
    (hstep : ∀ {nesting rest}, IsOpen nesting → Ends rest → codeStep nesting (s ++ rest) = ⟨l, nesting, rest⟩) :
    Scans s [l] := by
  subst hs
  intro nesting gap rest hopen hgap hrest
  exact goes_lexeme hl hgap hopen (hstep hopen hrest)

/-- Characters of a class without line ends. -/
theorem not_mem_feed (test : Char → Bool) (htest : test '\n' = false) {text : List Char}
    (h : ∀ c ∈ text, test c = true) : '\n' ∉ text := by
  intro hmem
  rw [h _ hmem] at htest
  cases htest

theorem isInline_word {word : String} (hword : Text.isIdentifier word.toList = true) : IsInline (.word word) := by
  cases hchars : word.toList with
  | nil =>
    rw [hchars] at hword
    cases hword
  | cons c more =>
    rw [hchars, Text.isIdentifier, Bool.and_eq_true, List.all_eq_true] at hword
    refine ⟨⟨c, more, hchars, not_mem_of_class hword.1 (by decide +kernel)⟩, ?_⟩
    apply not_mem_feed Text.isIdentifierPart (by decide)
    rw [Lexeme.text, hchars]
    exact List.forall_mem_cons.mpr ⟨isIdentifierPart_of_start hword.1, hword.2⟩

theorem isInline_quote (value : String) : IsInline (.string (quote value)) where
  opens := ⟨'\x27', value.toList.flatMap Code.escaped ++ ['\x27'], by simp [Lexeme.text, quote], by decide⟩
  line := Code.oneLine_quote value '\n' (by decide)

/-- Numbers open with digits. -/
theorem isInline_number {digits behind : List Char} {l : Lexeme} (hl : l.text.toList = digits ++ behind)
    (hne : digits ≠ []) (hdigits : Decimal.AreDigits digits) (hbehind : '\n' ∉ behind) : IsInline l := by
  constructor
  · obtain ⟨d, more, rfl⟩ := List.exists_cons_of_ne_nil hne
    exact ⟨d, more ++ behind, hl, not_mem_of_class (hdigits d List.mem_cons_self) (by decide)⟩
  · rw [hl, List.mem_append, not_or]
    exact ⟨not_mem_feed Char.isDigit (by decide) hdigits, hbehind⟩

theorem isInline_symbol {mark : Char} {symbol : String} (hsymbol : symbol.toList = [mark]) (h : mark ∉ gapMarks) :
    IsInline (.symbol symbol) where
  opens := ⟨mark, [], hsymbol, h⟩
  line := by
    rw [Lexeme.text, hsymbol, List.mem_singleton]
    rintro rfl
    exact h (by decide)

theorem goes_word {word : String} (hword : Text.isIdentifier word.toList = true) (hgap : IsSpacing gap)
    (hopen : IsOpen nesting) (hrest : Stops endsWord rest) :
    Goes nesting (gap ++ (word.toList ++ rest)) [.word word] nesting rest := by
  apply goes_lexeme (isInline_word hword) hgap hopen
  rw [Lexeme.text, codeStep_word hopen hword hrest, String.ofList_toList]

theorem goes_symbol (mark : Char) (symbol : String) (hsymbol : symbol.toList = [mark]) (hmark : mark ∉ gapMarks)
    (hgap : IsSpacing gap) (hopen : IsOpen nesting)
    (hstep : codeStep nesting (mark :: rest) = ⟨.symbol symbol, nesting', rest⟩) :
    Goes nesting (gap ++ mark :: rest) [.symbol symbol] nesting' rest := by
  have hgoes : Goes nesting (gap ++ ((Lexeme.symbol symbol).text.toList ++ rest)) [.symbol symbol] nesting' rest :=
    goes_lexeme (isInline_symbol hsymbol hmark) hgap hopen (by rw [Lexeme.text, hsymbol]; exact hstep)
  rwa [Lexeme.text, hsymbol] at hgoes

/-! ## Texts that are lexemes -/

theorem scans_word {word : String} (hword : Text.isIdentifier word.toList = true) : Scans word.toList [.word word] :=
  fun _ _ _ hopen hgap hrest => goes_word hword hgap hopen (hrest.stops (by decide))

theorem scans_quote {value : String} (hnull : '\x00' ∉ value.toList) :
    Scans (quote value).toList [.string (quote value)] :=
  scans_lexeme rfl (isInline_quote value) fun _ hrest => codeStep_quote hnull (hrest.stops (by decide))

theorem scans_digits {digits : List Char} (hne : digits ≠ []) (hdigits : Decimal.AreDigits digits) :
    Scans digits [.integer (String.ofList digits)] := by
  have htext : (Lexeme.integer (String.ofList digits)).text.toList = digits := String.toList_ofList
  apply scans_lexeme htext (isInline_number (htext.trans (List.append_nil _).symm) hne hdigits List.not_mem_nil)
  intro nesting rest hopen hrest
  exact codeStep_digits hopen hne hdigits (hrest.stops (by decide))

theorem scans_decimal {w : WrittenDecimal} (hform : w.fraction.isSome ∨ w.power.isSome) :
    Scans w.chars [.float (String.ofList w.chars)] := by
  have htext : (Lexeme.float (String.ofList w.chars)).text.toList = w.chars := String.toList_ofList
  have hwhole : Decimal.AreDigits w.whole := fun c hc => w.areDigits c (List.mem_append_left _ hc)
  have hfeed : '\n' ∉ w.chars := fun hmem => absurd (WrittenDecimal.of_mem_chars hmem) (by decide)
  rw [WrittenDecimal.chars, List.append_assoc, List.mem_append, not_or] at hfeed
  apply scans_lexeme htext (isInline_number (htext.trans (List.append_assoc _ _ _)) w.whole_ne_nil hwhole hfeed.2)
  intro nesting rest hopen hrest
  exact codeStep_decimal hopen hform (hrest.stops (by decide))

/-! ## Texts that are put together -/

/-- No sign goes on with a minus. -/
def ArrowFree (s : List Char) : Prop := ∃ c more, s = c :: more ∧ c ≠ '=' ∧ c ≠ '>'

theorem ArrowFree.stops {test : Char → Bool} (htest : ∀ c, c ≠ '=' → c ≠ '>' → test c = false) (h : ArrowFree s) :
    Stops test (s ++ rest) := by
  obtain ⟨c, more, rfl, hequals, harrow⟩ := h
  exact stops_cons (htest c hequals harrow)

theorem scans_minus (hs : ArrowFree s) (h : Scans s ls) : Scans ('-' :: s) (.symbol "-" :: ls) := by
  intro nesting gap rest hopen hgap hrest
  have hstops : Stops (fun c => c == '=' || c == '>') (s ++ rest) := hs.stops (by simp +contextual)
  have hminus := goes_symbol '-' "-" rfl (by decide) hgap hopen (codeStep_minus hopen hstops)
  exact hminus.trans (h hopen (Or.inl rfl) hrest)

theorem scans_plus (hs : ArrowFree s) (h : Scans s ls) : Scans ('+' :: s) (.symbol "+" :: ls) := by
  intro nesting gap rest hopen hgap hrest
  have hstops : Stops (· == '=') (s ++ rest) := hs.stops (by simp +contextual)
  have hplus := goes_symbol '+' "+" rfl (by decide) hgap hopen (codeStep_plus hopen hstops)
  exact hplus.trans (h hopen (Or.inl rfl) hrest)

/-- A keyword with its value. -/
theorem scans_keyword {name : String} (hname : Text.isIdentifier name.toList = true) (hs : ArrowFree s)
    (h : Scans s ls) : Scans (name.toList ++ '=' :: s) (.word name :: .symbol "=" :: ls) := by
  intro nesting gap rest hopen hgap hrest
  have hend : Stops endsWord ('=' :: (s ++ rest)) := stops_cons (by decide)
  have hword := goes_word hname hgap hopen hend
  have hstops : Stops (· == '=') (s ++ rest) := hs.stops (by simp +contextual)
  have hequals := goes_symbol '=' "=" rfl (by decide) (Or.inl rfl) hopen (codeStep_equals hopen hstops)
  rw [List.append_assoc]
  exact hword.trans (hequals.trans (h hopen (Or.inl rfl) hrest))

theorem goes_nil (nesting : List Nesting) (rest : List Char) : Goes nesting rest [] nesting rest :=
  fun _ fuel hfuel => ⟨[], fuel, .nil, hfuel, rfl⟩

/-- **Texts with commas between them** are split one after the other. -/
theorem goes_commas {texts : List (List Char)} {lss : List (List Lexeme)} (h : List.Forall₂ Scans texts lss)
    (hopen : IsOpen nesting) (hgap : IsSpacing gap) (hempty : texts = [] → gap = []) (hrest : Ends rest) :
    Goes nesting (gap ++ (Text.join [',', ' '] texts ++ rest)) (commas lss) nesting rest := by
  induction h generalizing gap with
  | nil =>
    rw [hempty rfl]
    exact goes_nil nesting rest
  | cons hfirst hmore ih =>
    rename_i text ls texts lss
    cases hmore with
    | nil => exact hfirst hopen hgap hrest
    | cons hnext hlast =>
      rename_i next nextLs texts lss
      have htail := ih (Or.inr rfl : IsSpacing [' ']) (by simp)
      have hcomma := goes_symbol ',' "," rfl (by decide) (Or.inl rfl) hopen
        (codeStep_comma hopen ([' '] ++ (Text.join [',', ' '] (next :: texts) ++ rest)))
      have hall := (hfirst hopen hgap (ends_cons (by decide) _)).trans (hcomma.trans htail)
      rw [Text.join_cons_cons, List.append_assoc, List.append_assoc]
      exact hall

/-- Texts between brackets. -/
theorem goes_enclosed {texts : List (List Char)} {lss : List (List Lexeme)} (h : List.Forall₂ Scans texts lss)
    {left right : Char} {opening closing : String} (hopening : opening.toList = [left])
    (hclosing : closing.toList = [right]) (hmarks : left ∉ gapMarks ∧ right ∉ gapMarks ∧ right ∈ [',', ')', ']'])
    (hopen : IsOpen nesting) (hgap : IsSpacing gap)
    (hleft : ∀ rest, codeStep nesting (left :: rest) = ⟨.symbol opening, .bracket :: nesting, rest⟩)
    (hright : ∀ rest, codeStep (.bracket :: nesting) (right :: rest) = ⟨.symbol closing, nesting, rest⟩) :
    Goes nesting (gap ++ (left :: (Text.join [',', ' '] texts ++ right :: rest)))
      (.symbol opening :: (commas lss ++ [.symbol closing])) nesting rest := by
  have hinside : IsOpen (.bracket :: nesting) := List.forall_mem_cons.mpr ⟨rfl, hopen⟩
  have hfirst := goes_symbol left opening hopening hmarks.1 hgap hopen (hleft (Text.join [',', ' '] texts ++ right :: rest))
  have hlast := goes_symbol right closing hclosing hmarks.2.1 (Or.inl rfl) hinside (hright rest)
  exact hfirst.trans ((goes_commas h hinside (Or.inl rfl) (fun _ => rfl) (ends_cons hmarks.2.2 _)).trans hlast)

/-- Items between square brackets. -/
theorem scans_list {texts : List (List Char)} {lss : List (List Lexeme)} (h : List.Forall₂ Scans texts lss) :
    Scans ('[' :: (Text.join [',', ' '] texts ++ [']'])) (.symbol "[" :: (commas lss ++ [.symbol "]"])) := by
  intro nesting gap rest hopen hgap hrest
  rw [List.cons_append, List.append_assoc]
  exact goes_enclosed h rfl rfl (by decide) hopen hgap (codeStep_openSquare hopen) (codeStep_closeSquare hopen)

/-- A text between round brackets. -/
theorem scans_round (h : Scans s ls) : Scans ('(' :: (s ++ [')'])) (.symbol "(" :: (ls ++ [.symbol ")"])) := by
  intro nesting gap rest hopen hgap hrest
  rw [List.cons_append, List.append_assoc]
  exact goes_enclosed (.cons h .nil) rfl rfl (by decide) hopen hgap (codeStep_openRound hopen) (codeStep_closeRound hopen)

/-- Arguments behind the name of a function. -/
theorem goes_call {texts : List (List Char)} {lss : List (List Lexeme)} (h : List.Forall₂ Scans texts lss)
    {function : String} (hfunction : Text.isIdentifier function.toList = true) (hopen : IsOpen nesting)
    (hgap : IsSpacing gap) (rest : List Char) :
    Goes nesting (gap ++ (function.toList ++ '(' :: (Text.join [',', ' '] texts ++ ')' :: rest)))
      (.word function :: .symbol "(" :: (commas lss ++ [.symbol ")"])) nesting rest := by
  have hend : Stops endsWord ('(' :: (Text.join [',', ' '] texts ++ ')' :: rest)) := stops_cons (by decide)
  have hword := goes_word hfunction hgap hopen hend
  exact hword.trans (goes_enclosed h rfl rfl (by decide) hopen (Or.inl rfl) (codeStep_openRound hopen)
    (codeStep_closeRound hopen))

theorem scans_call {texts : List (List Char)} {lss : List (List Lexeme)} (h : List.Forall₂ Scans texts lss)
    {function : String} (hfunction : Text.isIdentifier function.toList = true) :
    Scans (function.toList ++ '(' :: (Text.join [',', ' '] texts ++ [')']))
      (.word function :: .symbol "(" :: (commas lss ++ [.symbol ")"])) := by
  intro nesting gap rest hopen hgap hrest
  rw [List.append_assoc, List.cons_append, List.append_assoc]
  exact goes_call h hfunction hopen hgap rest

theorem scans_methodCall {texts : List (List Char)} {lss : List (List Lexeme)} (h : List.Forall₂ Scans texts lss)
    {object function : String} (hobject : Text.isIdentifier object.toList = true)
    (hfunction : Text.isIdentifier function.toList = true) :
    Scans (object.toList ++ '.' :: (function.toList ++ '(' :: (Text.join [',', ' '] texts ++ [')'])))
      (.word object :: .symbol "." :: .word function :: .symbol "(" :: (commas lss ++ [.symbol ")"])) := by
  intro nesting gap rest hopen hgap hrest
  rw [List.append_assoc, List.cons_append, List.append_assoc, List.cons_append, List.append_assoc]
  have hcall := goes_call h hfunction hopen (Or.inl rfl) rest
  have hstops : Stops (fun c => c == '.' || c.isDigit)
      (function.toList ++ '(' :: (Text.join [',', ' '] texts ++ ([')'] ++ rest))) := by
    cases hchars : function.toList with
    | nil => exact stops_cons (by decide)
    | cons c more =>
      rw [hchars, Text.isIdentifier, Bool.and_eq_true] at hfunction
      apply stops_cons
      rw [isDigit_of_start hfunction.1, Bool.or_false, beq_eq_false_iff_ne]
      exact ne_of_class hfunction.1 (by decide)
  have hpoint := goes_symbol '.' "." rfl (by decide) (Or.inl rfl) hopen (codeStep_point hopen hstops)
  have hend : Stops endsWord ('.' :: (function.toList ++ '(' :: (Text.join [',', ' '] texts ++ ([')'] ++ rest)))) :=
    stops_cons (by decide)
  have hword := goes_word hobject hgap hopen hend
  exact hword.trans (hpoint.trans hcall)

end Lexer

end ClassCli.Source
