import ClassCli.Proofs.Source.LineEndSteps

/-!
# Source texts and line ends

With a carriage return in front of every line feed a source text has the same tokens, apart from the line
ends inside strings and gaps, and so the same tree. Steps are taken on both texts side by side; each takes
something off the text, so that the fuel never runs out.

* **`Tokens.isOrderly`** — tokens as Python has them.
* **`tokensFrom_returns`** — the tokens of a text.
* **`readModule_returns`** — the tree of a source text.
-/

namespace ClassCli.Source

open Text (withReturns)

/-- Whether all lexemes are as Python has them. -/
def Tokens.isOrderly : List Bool → Tokens → Bool
  | _, [] => true
  | opened, t :: ts => t.lexeme.isOrderly opened && Tokens.isOrderly (t.lexeme.openedAfter opened) ts

namespace Lexer

variable {nesting outer : List Nesting} {s rest : List Char} {opened : List Bool}

/-- No line feed follows a gap. -/
theorem head?_scanFrom (comment : Bool) (gap : Gap) (s : List Char) :
    (Gap.scanFrom comment gap s).2.head? ≠ some '\n' := by
  fun_induction Gap.scanFrom comment gap s with
  | case1 | case3 | case12 | case13 => simp
  | case14 _ _ c _ hc => simpa using hc
  | _ => assumption

/-- Alike lexemes open strings or do not. -/
theorem opensString_like {L : Likeness} {l l' : Lexeme} (h : Lexeme.Like L l l') :
    opensString l' = opensString l := by
  cases h with
  | same => rfl
  | string => rfl
  | formatText => rfl
  | stray => rfl

/-- Alike lexemes hold as many line feeds. -/
theorem lineFeeds_like {a b : String} (h : Likeness.returns.Text a b) :
    lineFeeds b.toList = lineFeeds a.toList := by
  rw [lineFeeds, h, Text.count_withReturns]
  rfl

/-- What is left of a text is shorter. -/
theorem Takes.length_lt {step : Step} (h : Takes step s) : step.rest.length < s.length := by
  have hparts := congrArg List.length h.parts
  rw [List.length_append, String.length_toList] at hparts
  have hne : step.lexeme.text.length ≠ 0 := fun hzero => h.something (String.length_eq_zero_iff.mp hzero)
  omega

theorem Takes.not_mem {step : Step} (h : Takes step s) (hs : '\r' ∉ s) : '\r' ∉ step.rest := by
  intro hmem
  rw [h.parts] at hs
  exact hs (List.mem_append_right _ hmem)

/-! ## Tokens of code -/

/-- The gap in front of the next lexeme of code. -/
def gapAhead (s : List Char) : Gap := if (Gap.scan s).2.isEmpty then (Gap.scan s).1.atEnd else (Gap.scan s).1

/-- The end of a line in a gap, if code stands outside brackets. -/
def lineBreaks (nesting : List Nesting) (line : Nat) (gap : Gap) : List Token :=
  if gap.crosses && nesting.isEmpty then [⟨.lineBreak gap.indent, "", [], line⟩] else []

/-- A lexeme of code with the gap in front of it. -/
def codeToken (line : Nat) (gap : Gap) (lexeme : Lexeme) : Token where
  lexeme
  gap := String.ofList gap.chars
  joins := if opensString lexeme then [] else gap.joins.reverse
  line := line + lineFeeds gap.chars

theorem tokensFrom_code (fuel : Nat) (line : Nat) (s : List Char)
    (htext : ∀ q outer, nesting ≠ .text q :: outer) (hspecification : ∀ outer, nesting ≠ .specification :: outer) :
    tokensFrom (fuel + 1) nesting line s =
      let gap := gapAhead s
      let step := codeStep nesting (Gap.scan s).2
      let token := codeToken line gap step.lexeme
      if (Gap.scan s).2.isEmpty then lineBreaks nesting line gap ++ [token]
      else lineBreaks nesting line gap ++ token ::
        tokensFrom fuel step.nesting (token.line + lineFeeds step.lexeme.text.toList) step.rest := by
  rw [tokensFrom]
  · rfl
  · exact htext
  · exact hspecification

theorem gapAhead_returns (hs : '\r' ∉ s) : GapReturns (gapAhead s) (gapAhead (withReturns s)) := by
  obtain ⟨hgap, hrest⟩ := @scanFrom_withReturns false _ _ s hs GapReturns.empty
  unfold gapAhead Gap.scan
  rw [hrest, Text.isEmpty_withReturns]
  split
  · exact hgap.atEnd
  · exact hgap

theorem lineBreaks_returns {gap gap' : Gap} (h : GapReturns gap gap') (nesting : List Nesting) (line : Nat) :
    List.Forall₂ (Token.Like .returns) (lineBreaks nesting line gap) (lineBreaks nesting line gap') := by
  unfold lineBreaks
  rw [h.crosses, h.indent]
  split
  · exact .cons ⟨.same _ trivial rfl, rfl, .nil, rfl⟩ .nil
  · exact .nil

theorem codeToken_returns {gap gap' : Gap} (hgap : GapReturns gap gap') {l l' : Lexeme}
    (hl : Lexeme.Like .returns l l') (line : Nat) :
    Token.Like .returns (codeToken line gap l) (codeToken line gap' l') where
  lexeme := hl
  gap := by
    show Likeness.returns.Text (String.ofList gap.chars) (String.ofList gap'.chars)
    rw [hgap.chars]
    exact returns_ofList _
  joins := by
    unfold codeToken
    dsimp only
    rw [opensString_like hl]
    split
    · exact .nil
    · exact List.forall₂_reverse_iff.mpr hgap.joins
  line := by
    unfold codeToken
    dsimp only
    rw [hgap.chars, lineFeeds, lineFeeds, Text.count_withReturns]

/-- Ends of lines are as Python has them. -/
theorem isOrderly_lineBreaks (gap : Gap) (line : Nat) (ts : Tokens) :
    Tokens.isOrderly opened (lineBreaks nesting line gap ++ ts) = Tokens.isOrderly opened ts := by
  unfold lineBreaks
  split
  · rfl
  · rfl

/-! ## Whole texts -/

/-- Behind a run of text in a format specification stands no line feed, which would be stray. -/
theorem head?_specificationStep {fuel line : Nat} (htakes : Takes (specificationStep outer s) s)
    (hfuel : s.length < fuel + 1)
    (h : Tokens.isOrderly opened (tokensFrom fuel (specificationStep outer s).nesting line
      (specificationStep outer s).rest) = true) :
    (specificationStep outer s).nesting = .specification :: outer →
      (specificationStep outer s).rest.head? ≠ some '\n' := by
  intro hnesting hfeed
  obtain ⟨after, hafter⟩ := List.head?_eq_some_iff.mp hfeed
  have hlength := htakes.length_lt
  obtain ⟨fuel, rfl⟩ : ∃ n, fuel = n + 1 := ⟨fuel - 1, by omega⟩
  rw [hnesting, hafter, tokensFrom, specificationStep_stray rfl (by decide) (by decide), Tokens.isOrderly,
    isOrderly_giveUp] at h
  cases h

/-- **The tokens of a text with carriage returns** are those of the text, whatever is open around it. -/
theorem tokensFrom_returns {fuel fuel' line : Nat} (hsound : Sound nesting) (hs : '\r' ∉ s)
    (hfuel : s.length < fuel) (hfuel' : s.length < fuel')
    (h : Tokens.isOrderly (openedIn nesting) (tokensFrom fuel nesting line s) = true) :
    List.Forall₂ (Token.Like .returns) (tokensFrom fuel nesting line s)
      (tokensFrom fuel' nesting line (withReturns s)) := by
  induction fuel generalizing fuel' nesting line s with
  | zero => omega
  | succ fuel ih =>
    obtain ⟨fuel', rfl⟩ : ∃ n, fuel' = n + 1 := ⟨fuel' - 1, by omega⟩
    -- after a step that takes something off what is left of the text
    have hnext {t : List Char} (ht : t <:+ s) {step step' : Step} (htakes : Takes step t)
        (hkeeps : Keeps nesting step)
        (hstep : StepReturns step step') {line line' : Nat} (hline : line' = line)
        (h : Tokens.isOrderly (step.lexeme.openedAfter (openedIn nesting))
          (tokensFrom fuel step.nesting (line + lineFeeds step.lexeme.text.toList) step.rest) = true) :
        List.Forall₂ (Token.Like .returns)
          (tokensFrom fuel step.nesting (line + lineFeeds step.lexeme.text.toList) step.rest)
          (tokensFrom fuel' step'.nesting (line' + lineFeeds step'.lexeme.text.toList) step'.rest) := by
      obtain ⟨hsound, hopened⟩ := hkeeps hsound
      have hshorter := htakes.length_lt
      have hshort := ht.length_le
      rw [hstep.nesting, hstep.rest, lineFeeds_like hstep.lexeme.text, hline]
      refine ih hsound (htakes.not_mem fun hmem => hs (ht.subset hmem)) (by omega) (by omega) ?_
      rw [hopened]
      exact h
    by_cases htext : ∃ q outer, nesting = .text q :: outer
    · obtain ⟨q, outer, rfl⟩ := htext
      rw [tokensFrom, tokensFrom]
      rw [tokensFrom, Tokens.isOrderly, Bool.and_eq_true] at h
      obtain ⟨htakes, hkeeps, hstep⟩ := textStep_returns hsound.1 hs h.1
      exact .cons ⟨hstep.lexeme, rfl, .nil, rfl⟩ (hnext List.suffix_rfl htakes hkeeps hstep rfl h.2)
    by_cases hspecification : ∃ outer, nesting = .specification :: outer
    · obtain ⟨outer, rfl⟩ := hspecification
      rw [tokensFrom, tokensFrom]
      rw [tokensFrom, Tokens.isOrderly, Bool.and_eq_true] at h
      obtain ⟨htakes, hkeeps, hstep⟩ := specificationStep_returns h.1
      have hstep := hstep (head?_specificationStep htakes hfuel h.2)
      exact .cons ⟨hstep.lexeme, rfl, .nil, rfl⟩ (hnext List.suffix_rfl htakes hkeeps hstep rfl h.2)
    · have htext : ∀ q outer, nesting ≠ .text q :: outer := fun q outer heq => htext ⟨q, outer, heq⟩
      have hspecification : ∀ outer, nesting ≠ .specification :: outer :=
        fun outer heq => hspecification ⟨outer, heq⟩
      have hgap := gapAhead_returns hs
      have hrest : (Gap.scan (withReturns s)).2 = withReturns (Gap.scan s).2 :=
        (scanFrom_withReturns hs GapReturns.empty).2
      have hsuffix : (Gap.scan s).2 <:+ s := scanFrom_suffix _ _ _
      rw [tokensFrom_code _ _ _ htext hspecification] at h ⊢
      rw [tokensFrom_code _ _ _ htext hspecification, hrest, Text.isEmpty_withReturns]
      dsimp only at h ⊢
      cases hempty : (Gap.scan s).2.isEmpty with
      | true =>
        rw [List.isEmpty_iff.mp hempty]
        rw [if_pos rfl, if_pos rfl]
        exact List.rel_append (lineBreaks_returns hgap nesting line)
          (.cons (codeToken_returns hgap (.same .finish trivial rfl) line) .nil)
      | false =>
        rw [hempty, if_neg Bool.false_ne_true, isOrderly_lineBreaks, Tokens.isOrderly, Bool.and_eq_true] at h
        rw [if_neg Bool.false_ne_true, if_neg Bool.false_ne_true]
        have hne : (Gap.scan s).2 ≠ [] := fun heq => by
          rw [heq] at hempty
          cases hempty
        obtain ⟨htakes, hkeeps, hstep⟩ := codeStep_returns (fun hmem => hs (hsuffix.subset hmem)) hne
          (head?_scanFrom _ _ _) h.1
        have htoken := codeToken_returns hgap hstep.lexeme line
        exact List.rel_append (lineBreaks_returns hgap nesting line)
          (.cons htoken (hnext hsuffix htakes hkeeps hstep htoken.line.symm h.2))

/-- **The tokens of a source text with carriage returns** are those of the text. -/
theorem tokens_returns {source source' : String} (hsource : '\r' ∉ source.toList)
    (horderly : Tokens.isOrderly [] (tokens source) = true) (h : source'.toList = withReturns source.toList) :
    Tokens.Like .returns (tokens source) (tokens source') := by
  refine ⟨?_, trivial⟩
  unfold tokens at horderly ⊢
  rw [h]
  have hlength : source.toList.length ≤ (withReturns source.toList).length :=
    Text.length_le_withReturns _
  exact tokensFrom_returns trivial hsource (by omega) (by omega) horderly

end Lexer

/-- **Line ends do not matter for the tree** of a source text: with carriage returns in front of its line feeds it
can be read if it can be read without them, and the trees are alike. -/
theorem readModule_returns {source source' : String} {stmts : List Stmt} (hsource : '\r' ∉ source.toList)
    (horderly : Tokens.isOrderly [] (Lexer.tokens source) = true)
    (h : source'.toList = withReturns source.toList) (hread : readModule source = .ok stmts) :
    ∃ stmts', readModule source' = .ok stmts' ∧ Stmts.Like .returns stmts stmts' := by
  rcases readModule_like (Lexer.tokens_returns hsource horderly h) with ⟨e, e', herror, -⟩ | ⟨a, b, ha, hb, hlike⟩
  · rw [hread] at herror
    cases herror
  · rw [hread] at ha
    cases ha
    exact ⟨b, hb, hlike⟩

end ClassCli.Source
