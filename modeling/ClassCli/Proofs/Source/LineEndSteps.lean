import Mathlib.Data.List.Find
import ClassCli.Proofs.Source.LikeModules
import ClassCli.Proofs.Source.LineEndNumbers
import ClassCli.Proofs.Source.LineEndStrings

/-!
# Lexemes and line ends

With a carriage return in front of every line feed the same gap and the same lexeme come first in a text,
apart from the line ends inside them. This needs what Python asks of a text: that the lexeme is none that
is stray, and that no line feed stands inside single quotes without a backslash.

* **`Likeness.returns`** — the same text, with a carriage return in front of every line feed.
* **`Lexeme.isOrderly`** — lexemes as Python has them.
* **`scanFrom_withReturns`** — gaps.
* **`textStep_returns`**, **`specificationStep_returns`**, **`codeStep_returns`** — lexemes, by what is open.
-/

namespace ClassCli.Source

open Text (NoEnds afterStart isIdentifierPart isIdentifierStart startsWith startsWith_withReturns withReturns
  withReturns_append withReturns_cons withReturns_feed withReturns_of_not_mem)

/-- The same text, with a carriage return in front of every line feed; words hold no line feeds. -/
def Likeness.returns : Likeness where
  Text a b := b.toList = withReturns a.toList
  Word text := '\n' ∉ text.toList
  Within _ := True
  empty := rfl
  append h h' := by rw [String.toList_append, String.toList_append, h, h', withReturns_append]
  tail _ := trivial

/-- A text without line feeds is not changed. -/
theorem returns_self {text : String} (h : '\n' ∉ text.toList) : Likeness.returns.Text text text :=
  (withReturns_of_not_mem h).symm

theorem returns_ofList (s : List Char) :
    Likeness.returns.Text (String.ofList s) (String.ofList (withReturns s)) := by
  show (String.ofList (withReturns s)).toList = withReturns (String.ofList s).toList
  rw [String.toList_ofList, String.toList_ofList]

/-! ## Tokens as Python has them -/

open Lexer (bareFeed)

/-- Whether three quotes open a string. -/
def isTriple (text : String) : Bool :=
  let s := text.toList.dropWhile Lexer.isMarker
  startsWith (List.replicate 3 '\x22') s || startsWith (List.replicate 3 '\x27') s

/-- Whether a lexeme is as Python has it: inside single quotes no line feed stands without a backslash.
`opened` says of the format strings that are open whether three quotes open them, innermost first. -/
def Lexeme.isOrderly (opened : List Bool) : Lexeme → Bool
  | .string text => isTriple text || !bareFeed false text.toList
  | .formatText text => opened.headD false || !bareFeed false text.toList
  | .stray _ => false
  | _ => true

/-- The format strings that are open after a lexeme. -/
def Lexeme.openedAfter (opened : List Bool) : Lexeme → List Bool
  | .formatOpen text => isTriple text :: opened
  | .formatClose _ => opened.drop 1
  | _ => opened

namespace Lexer

/-! ## Gaps -/

/-- The same gap, with a carriage return in front of every line feed. -/
structure GapReturns (gap gap' : Gap) : Prop where
  chars : gap'.chars = withReturns gap.chars
  joins : List.Forall₂ Likeness.returns.Text gap.joins gap'.joins
  crosses : gap'.crosses = gap.crosses
  indent : gap'.indent = gap.indent

namespace GapReturns

variable {gap gap' : Gap}

theorem empty : GapReturns .empty .empty := ⟨rfl, .nil, rfl, rfl⟩

theorem push (h : GapReturns gap gap') {c : Char} (hc : c ≠ '\n') : GapReturns (gap.push c) (gap'.push c) where
  chars := by
    have hpush (g : Gap) : (g.push c).chars = g.chars ++ [c] := List.reverse_cons
    rw [hpush, hpush, h.chars, withReturns_append, withReturns_cons hc]
    rfl
  joins := h.joins
  crosses := h.crosses
  indent := h.indent

/-- The columns are counted in the same way. -/
theorem count (h : GapReturns gap gap') (crosses : Bool) (indent : Nat) :
    GapReturns { gap with crosses, indent } { gap' with crosses, indent } :=
  ⟨h.chars, h.joins, rfl, rfl⟩

/-- A line end. -/
theorem feed (h : GapReturns gap gap') : GapReturns { gap.push '\n' with crosses := true, indent := 0 }
    { Gap.push '\n' { gap'.push '\r' with indent := 0 } with crosses := true, indent := 0 } where
  chars := by
    show ('\n' :: '\r' :: gap'.reversed).reverse = withReturns ('\n' :: gap.reversed).reverse
    rw [List.reverse_cons, List.reverse_cons, List.append_assoc, List.reverse_cons, withReturns_append]
    exact congrArg (· ++ ['\r', '\n']) h.chars
  joins := h.joins
  crosses := rfl
  indent := rfl

theorem join (h : GapReturns gap gap') (mark : List Char) :
    GapReturns (gap.join mark) (gap'.join (withReturns mark)) where
  chars := by
    have hjoin (g : Gap) (mark : List Char) : (g.join mark).chars = g.chars ++ mark := by
      rw [Gap.join, Gap.chars, List.reverse_append, List.reverse_reverse]
      rfl
    rw [hjoin, hjoin, h.chars, withReturns_append]
  joins := .cons (returns_ofList mark) h.joins
  crosses := h.crosses
  indent := h.indent

theorem atEnd (h : GapReturns gap gap') : GapReturns gap.atEnd gap'.atEnd := h.count true 0

end GapReturns

/-- What a gap becomes with one more character, unless the character ends it: whether a comment is being
crossed, and the gap. -/
def crossed? (comment : Bool) (gap : Gap) (c : Char) : Option (Bool × Gap) :=
  if comment then if c = '\x00' then none else some (true, gap.push c)
  else if c = ' ' then some (false, { gap.push c with indent := gap.indent + 1 })
  else if c = '\t' then some (false, { gap.push c with indent := gap.indent + 8 })
  else if c = '\r' || c = '\x0c' then some (false, { gap.push c with indent := 0 })
  else if Gap.isFiller c then some (false, gap.push c)
  else if c = '#' then some (true, gap.push c)
  else none

theorem scanFrom_feed {comment : Bool} {gap : Gap} (rest : List Char) :
    Gap.scanFrom comment gap ('\n' :: rest)
      = Gap.scanFrom false { gap.push '\n' with crosses := true, indent := 0 } rest := by
  rw [Gap.scanFrom.eq_def]
  exact if_pos rfl

/-- A backslash joins lines, whether or not a carriage return stands behind it. -/
theorem scanFrom_join {gap : Gap} (rest : List Char) :
    Gap.scanFrom false gap ('\\' :: '\n' :: rest) = Gap.scanFrom false (gap.join ['\\', '\n']) rest
      ∧ Gap.scanFrom false gap ('\\' :: '\r' :: '\n' :: rest)
        = Gap.scanFrom false (gap.join ['\\', '\r', '\n']) rest := by
  constructor
  · rw [Gap.scanFrom.eq_def]
    rfl
  · rw [Gap.scanFrom.eq_def]
    rfl

/-- Any other backslash ends the gap. -/
theorem scanFrom_backslash {gap : Gap} {c : Char} (hc : c ≠ '\r' ∧ c ≠ '\n') (rest : List Char) :
    Gap.scanFrom false gap ('\\' :: c :: rest) = (gap, '\\' :: c :: rest) := by
  rw [Gap.scanFrom]
  · rfl
  · exact fun after heq => hc.2 (List.cons.inj heq).1
  · exact fun after heq => hc.1 (List.cons.inj heq).1
  · exact fun heq => nomatch heq

theorem scanFrom_cons {comment : Bool} {gap : Gap} {c : Char} (hfeed : c ≠ '\n')
    (hback : comment = true ∨ c ≠ '\\') (rest : List Char) :
    Gap.scanFrom comment gap (c :: rest) = match crossed? comment gap c with
      | some (comment, gap) => Gap.scanFrom comment gap rest
      | none => (gap, c :: rest) := by
  rw [Gap.scanFrom.eq_def, crossed?]
  dsimp only
  rw [if_neg hfeed]
  repeat' split
  all_goals simp_all

theorem crossed?_returns {gap gap' : Gap} (h : GapReturns gap gap') (comment : Bool) {c : Char} (hc : c ≠ '\n') :
    Option.Rel (fun x x' => x.1 = x'.1 ∧ GapReturns x.2 x'.2) (crossed? comment gap c)
      (crossed? comment gap' c) := by
  have hpush := h.push hc
  have hcount (n : Nat) : GapReturns { gap.push c with indent := n } { gap'.push c with indent := n } :=
    ⟨hpush.chars, hpush.joins, hpush.crosses, rfl⟩
  unfold crossed?
  rw [h.indent]
  repeat' split
  all_goals first
    | exact .none
    | exact .some ⟨rfl, hpush⟩
    | exact .some ⟨rfl, hcount _⟩

/-- **A gap with carriage returns** is the same gap, with carriage returns. -/
theorem scanFrom_withReturns {comment : Bool} {gap gap' : Gap} :
    ∀ {s : List Char}, '\r' ∉ s → GapReturns gap gap' →
      GapReturns (Gap.scanFrom comment gap s).1 (Gap.scanFrom comment gap' (withReturns s)).1
        ∧ (Gap.scanFrom comment gap' (withReturns s)).2 = withReturns (Gap.scanFrom comment gap s).2
  | [], _, h => ⟨h, rfl⟩
  | c :: rest, hs, h => by
    rw [List.mem_cons, not_or] at hs
    by_cases hc : c = '\n'
    · subst hc
      have hreturn : Gap.scanFrom comment gap' (withReturns ('\n' :: rest))
          = Gap.scanFrom false { Gap.push '\n' { gap'.push '\r' with indent := 0 } with
              crosses := true, indent := 0 } (withReturns rest) := by
        rw [withReturns_feed, scanFrom_cons (by decide) (Or.inr (by decide))]
        cases comment with
        | true => exact scanFrom_feed (withReturns rest)
        | false => exact scanFrom_feed (withReturns rest)
      rw [hreturn, scanFrom_feed]
      exact scanFrom_withReturns hs.2 h.feed
    by_cases hback : comment = true ∨ c ≠ '\\'
    · rw [withReturns_cons hc, scanFrom_cons hc hback, scanFrom_cons hc hback]
      have hcrossed := crossed?_returns h comment hc
      generalize crossed? comment gap c = o, crossed? comment gap' c = o' at hcrossed ⊢
      cases hcrossed with
      | none => exact ⟨h, (withReturns_cons hc rest).symm⟩
      | @some x x' hx =>
        obtain ⟨flag, g⟩ := x
        obtain ⟨flag', g'⟩ := x'
        obtain ⟨rfl, hg⟩ := hx
        exact scanFrom_withReturns hs.2 hg
    · rw [not_or, Bool.not_eq_true, not_not] at hback
      obtain ⟨rfl, rfl⟩ := hback
      rw [withReturns_cons hc]
      rcases Text.withReturns_cases rest with rfl | ⟨after, rfl⟩ | ⟨d, after, hd, rfl⟩
      · exact ⟨h.join ['\\'], rfl⟩
      · rw [List.mem_cons, not_or] at hs
        rw [withReturns_feed, (scanFrom_join _).1, (scanFrom_join _).2]
        exact scanFrom_withReturns hs.2.2 (h.join ['\\', '\n'])
      · rw [List.mem_cons, not_or] at hs
        have hd : d ≠ '\r' ∧ d ≠ '\n' := ⟨Ne.symm hs.2.1, hd⟩
        rw [withReturns_cons hd.2, scanFrom_backslash hd, scanFrom_backslash hd]
        exact ⟨h, by rw [withReturns_cons hc, withReturns_cons hd.2]⟩

/-- What follows a gap is a later part of the text. -/
theorem scanFrom_suffix (comment : Bool) (gap : Gap) (s : List Char) :
    (Gap.scanFrom comment gap s).2 <:+ s := by
  fun_induction Gap.scanFrom comment gap s with
  | case1 | case3 | case13 | case14 => exact List.suffix_rfl
  | case12 => exact List.nil_suffix
  | case10 _ _ _ _ _ _ _ _ _ _ ih => exact (ih.trans (List.suffix_cons _ _)).trans (List.suffix_cons _ _)
  | case11 _ _ _ _ _ _ _ _ _ _ ih =>
    exact ((ih.trans (List.suffix_cons _ _)).trans (List.suffix_cons _ _)).trans (List.suffix_cons _ _)
  | _ =>
    rename_i ih
    exact ih.trans (List.suffix_cons _ _)

/-! ## Pieces of format strings -/

/-- The same step, with a carriage return in front of every line feed. -/
structure StepReturns (step step' : Step) : Prop where
  lexeme : Lexeme.Like .returns step.lexeme step'.lexeme
  nesting : step'.nesting = step.nesting
  rest : step'.rest = withReturns step.rest

/-- A step takes something off the front of a text. -/
structure Takes (step : Step) (s : List Char) : Prop where
  parts : s = step.lexeme.text.toList ++ step.rest
  something : step.lexeme.text ≠ ""

/-- Whether three quotes open each of the format strings that are open, innermost first. -/
def openedIn : List Nesting → List Bool
  | [] => []
  | .text q :: outer => q.triple :: openedIn outer
  | _ :: outer => openedIn outer

/-- What can be open: format strings in quotes, and format specifications of replacement fields. -/
def Sound : List Nesting → Prop
  | [] => True
  | .text q :: outer => q.Proper ∧ Sound outer
  | .specification :: outer => outer.head? = some .field ∧ Sound outer
  | _ :: outer => Sound outer

/-- A step opens and closes the format strings that its lexeme opens and closes. -/
def Keeps (nesting : List Nesting) (step : Step) : Prop :=
  Sound nesting → Sound step.nesting ∧ openedIn step.nesting = step.lexeme.openedAfter (openedIn nesting)

variable {q : Quoting} {outer nesting : List Nesting} {s : List Char} {opened : List Bool}

theorem isOrderly_giveUp (s : List Char) : (giveUp s).lexeme.isOrderly opened = false := rfl

theorem ofList_ne_empty {s : List Char} (h : s ≠ []) : String.ofList s ≠ "" := by
  intro hempty
  exact h (by rw [← String.toList_ofList (l := s), hempty]; rfl)

/-- A step that takes a text off the front of another. -/
theorem takes_of_text {step : Step} (text : List Char) (htext : step.lexeme.text = String.ofList text)
    (hparts : s = text ++ step.rest) (hne : text ≠ []) : Takes step s where
  parts := by
    rw [htext, String.toList_ofList]
    exact hparts
  something := by
    rw [htext]
    exact ofList_ne_empty hne

/-- A lexeme without line feeds is like itself. -/
theorem like_of_text {l : Lexeme} (text : List Char) (hsettled : l.IsSettled .returns)
    (htext : l.text = String.ofList text) (hfeed : '\n' ∉ text) : Lexeme.Like .returns l l := by
  refine .same l hsettled (returns_self ?_)
  rw [htext, String.toList_ofList]
  exact hfeed

theorem textStep_close (hrun : formatRun q true s = ([], s)) (hclose : startsWith q.marks s = true) :
    textStep q outer s = ⟨.formatClose (String.ofList q.marks), outer, s.drop q.marks.length⟩ := by
  unfold textStep
  rw [hrun]
  cases s with
  | nil =>
    obtain ⟨more, hmore⟩ := q.marks_cons
    rw [hmore] at hclose
    cases hclose
  | cons c after => exact if_pos hclose

theorem textStep_field {after : List Char} (hrun : formatRun q true ('\x7b' :: after) = ([], '\x7b' :: after))
    (hclose : startsWith q.marks ('\x7b' :: after) = false) :
    textStep q outer ('\x7b' :: after) = ⟨.fieldOpen, .field :: .text q :: outer, after⟩ := by
  unfold textStep
  rw [hrun]
  dsimp only
  rw [hclose]
  rfl

/-- A run of text is a piece unless a line feed breaks the string off behind it. -/
theorem textStep_run {run rest : List Char} (hrun : formatRun q true s = (run, rest)) (hne : run ≠ []) :
    textStep q outer s = if rest.head? = some '\n' then giveUp s
      else ⟨.formatText (String.ofList run), .text q :: outer, rest⟩ := by
  unfold textStep
  rw [hrun]
  split
  · next heq => exact absurd (Prod.mk.inj heq).1 hne
  · next heq =>
    rw [(Prod.mk.inj heq).2]
    rfl
  · next hother heq =>
    obtain ⟨rfl, rfl⟩ := Prod.mk.inj heq
    rw [if_neg]
    intro hfeed
    obtain ⟨after, hafter⟩ := List.head?_eq_some_iff.mp hfeed
    exact hother after hafter

/-- Nothing else stands in front of a run of text. -/
theorem textStep_stray {c : Char} {after : List Char} (hrun : formatRun q true (c :: after) = ([], c :: after))
    (hclose : startsWith q.marks (c :: after) = false) (hbrace : c ≠ '\x7b') :
    textStep q outer (c :: after) = giveUp (c :: after) := by
  unfold textStep
  rw [hrun]
  dsimp only
  rw [hclose, if_neg Bool.false_ne_true, if_neg hbrace]

/-- Closing quotes are the next piece. -/
theorem textStep_close_returns (hq : q.Proper) (hs : '\r' ∉ s) (hrun : formatRun q true s = ([], s))
    (hclose : startsWith q.marks s = true) :
    Takes (textStep q outer s) s ∧ Keeps (.text q :: outer) (textStep q outer s)
      ∧ StepReturns (textStep q outer s) (textStep q outer (withReturns s)) := by
  have hmarks : '\n' ∉ q.marks := fun hmem => (hq.noEnds _ hmem).2 rfl
  have hparts := drop_marks hclose
  obtain ⟨more, hmore⟩ := q.marks_cons
  have hfeed : s.head? ≠ some '\n' := by
    rw [hparts, hmore, List.cons_append, List.head?_cons]
    exact fun heq => hq.quote_ne.2.1 (Option.some.inj heq)
  have hrun' := formatRun_withReturns hq hs hrun (Or.inr rfl) hfeed true
  have hclose' : startsWith q.marks (withReturns s) = true := by
    rw [startsWith_withReturns hq.noEnds, hclose]
  rw [textStep_close hrun hclose, textStep_close hrun' hclose']
  refine ⟨takes_of_text _ rfl hparts (by simp [hmore]), fun hsound => ⟨hsound.2, rfl⟩,
    ⟨like_of_text _ trivial rfl hmarks, rfl, ?_⟩⟩
  conv => lhs; rw [hparts, withReturns_append, withReturns_of_not_mem hmarks, List.drop_left]

/-- An opening brace is the next piece. -/
theorem textStep_field_returns {after : List Char} (hq : q.Proper) (hs : '\r' ∉ '\x7b' :: after)
    (hrun : formatRun q true ('\x7b' :: after) = ([], '\x7b' :: after))
    (hclose : startsWith q.marks ('\x7b' :: after) = false) :
    Takes (textStep q outer ('\x7b' :: after)) ('\x7b' :: after)
      ∧ Keeps (.text q :: outer) (textStep q outer ('\x7b' :: after))
      ∧ StepReturns (textStep q outer ('\x7b' :: after)) (textStep q outer (withReturns ('\x7b' :: after))) := by
  have hrun' := formatRun_withReturns hq hs hrun (Or.inr rfl) (by simp) true
  have hclose' : startsWith q.marks (withReturns ('\x7b' :: after)) = false := by
    rw [startsWith_withReturns hq.noEnds, hclose]
  rw [withReturns_cons (by decide)] at hrun' hclose' ⊢
  rw [textStep_field hrun hclose, textStep_field hrun' hclose']
  exact ⟨takes_of_text ['\x7b'] rfl rfl nofun, fun hsound => ⟨hsound, rfl⟩,
    ⟨like_of_text ['\x7b'] trivial rfl (by decide), rfl, rfl⟩⟩

/-- A run of text is the next piece. -/
theorem textStep_run_returns {run rest : List Char} (hq : q.Proper) (hs : '\r' ∉ s)
    (hrun : formatRun q true s = (run, rest)) (hne : run ≠ [])
    (h : (textStep q outer s).lexeme.isOrderly (q.triple :: opened) = true) :
    Takes (textStep q outer s) s ∧ Keeps (.text q :: outer) (textStep q outer s)
      ∧ StepReturns (textStep q outer s) (textStep q outer (withReturns s)) := by
  rw [textStep_run hrun hne] at h ⊢
  by_cases hfeed : rest.head? = some '\n'
  · rw [if_pos hfeed, isOrderly_giveUp] at h
    cases h
  · rw [if_neg hfeed] at h ⊢
    have hadmits : q.Admits run := by
      rw [Lexeme.isOrderly, String.toList_ofList, Bool.or_eq_true, Bool.not_eq_true'] at h
      exact h
    have hrun' := formatRun_withReturns hq hs hrun hadmits hfeed true
    have hne' : withReturns run ≠ [] := fun hnil => hne (Text.withReturns_eq_nil.mp hnil)
    rw [textStep_run hrun' hne', if_neg (Text.head?_withReturns_ne rest)]
    exact ⟨takes_of_text _ rfl (append_of_formatRun hrun) hne, fun hsound => ⟨hsound, rfl⟩,
      ⟨.formatText (returns_ofList run), rfl, rfl⟩⟩

/-- **The next piece of a format string.** -/
theorem textStep_returns (hq : q.Proper) (hs : '\r' ∉ s)
    (h : (textStep q outer s).lexeme.isOrderly (q.triple :: opened) = true) :
    Takes (textStep q outer s) s ∧ Keeps (.text q :: outer) (textStep q outer s)
      ∧ StepReturns (textStep q outer s) (textStep q outer (withReturns s)) := by
  rcases hrun : formatRun q true s with ⟨run, rest⟩
  by_cases hempty : run = []
  · subst hempty
    obtain rfl : s = rest := append_of_formatRun hrun
    cases s with
    | nil =>
      rw [textStep, hrun, isOrderly_giveUp] at h
      cases h
    | cons c after =>
      cases hclose : startsWith q.marks (c :: after) with
      | true => exact textStep_close_returns hq hs hrun hclose
      | false =>
        by_cases hbrace : c = '\x7b'
        · subst hbrace
          exact textStep_field_returns hq hs hrun hclose
        · rw [textStep_stray hrun hclose hbrace, isOrderly_giveUp] at h
          cases h
  · exact textStep_run_returns hq hs hrun hempty h

/-! ## Pieces of format specifications -/

/-- The characters that end a run of text in a format specification. -/
def endsSpecification (c : Char) : Bool := c ∈ ['\x7b', '\x7d', '\n', '\x00']

theorem specificationStep_run {run rest : List Char} (hcut : Text.cut endsSpecification s = (run, rest))
    (hne : run ≠ []) :
    specificationStep outer s = ⟨.formatText (String.ofList run), .specification :: outer, rest⟩ := by
  unfold specificationStep
  rw [show Text.cut (fun c => c ∈ ['\x7b', '\x7d', '\n', '\x00']) s = (run, rest) from hcut]
  split
  · next heq => exact absurd (Prod.mk.inj heq).1 hne
  · next heq => exact absurd (Prod.mk.inj heq).1 hne
  · next heq => exact absurd (Prod.mk.inj heq).1 hne
  · next heq =>
    obtain ⟨rfl, rfl⟩ := Prod.mk.inj heq
    rfl

theorem specificationStep_open (after : List Char) :
    specificationStep outer ('\x7b' :: after) = ⟨.fieldOpen, .field :: .specification :: outer, after⟩ := rfl

theorem specificationStep_close (after : List Char) :
    specificationStep outer ('\x7d' :: after) = ⟨.fieldClose, outer.drop 1, after⟩ := rfl

/-- Neither a line feed nor a null character belongs to a format specification. -/
theorem specificationStep_stray {c : Char} {after : List Char} (hends : endsSpecification c = true)
    (hopen : c ≠ '\x7b') (hclose : c ≠ '\x7d') :
    specificationStep outer (c :: after) = giveUp (c :: after) := by
  have hcut : Text.cut (fun c => c ∈ ['\x7b', '\x7d', '\n', '\x00']) (c :: after) = ([], c :: after) := by
    show Text.cut endsSpecification (c :: after) = _
    rw [Text.cut, List.takeWhile_cons_of_neg (by simp [hends]), List.dropWhile_cons_of_neg (by simp [hends])]
  unfold specificationStep
  rw [hcut]
  split
  · next heq => exact absurd (List.cons.inj (Prod.mk.inj heq).2).1 hopen
  · next heq => exact absurd (List.cons.inj (Prod.mk.inj heq).2).1 hclose
  · rfl
  · next hne heq => exact (hne (Prod.mk.inj heq).1.symm).elim

/-- **The next piece of a format specification.** -/
theorem specificationStep_returns (h : (specificationStep outer s).lexeme.isOrderly opened = true) :
    Takes (specificationStep outer s) s ∧ Keeps (.specification :: outer) (specificationStep outer s)
      -- a run of text in front of a line feed goes up to the carriage return
      ∧ (((specificationStep outer s).nesting = .specification :: outer →
            (specificationStep outer s).rest.head? ≠ some '\n') →
          StepReturns (specificationStep outer s) (specificationStep outer (withReturns s))) := by
  rcases hcut : Text.cut endsSpecification s with ⟨run, rest⟩
  obtain ⟨hrun, hrest⟩ := Prod.mk.inj hcut
  have hparts : s = run ++ rest := by
    rw [← hrun, ← hrest]
    exact List.takeWhile_append_dropWhile.symm
  by_cases hempty : run = []
  · subst hempty
    obtain rfl : s = rest := hparts
    cases s with
    | nil => cases h
    | cons c after =>
      by_cases hopen : c = '\x7b'
      · subst hopen
        rw [withReturns_cons (by decide), specificationStep_open, specificationStep_open]
        exact ⟨takes_of_text ['\x7b'] rfl rfl nofun, fun hsound => ⟨hsound, rfl⟩,
          fun _ => ⟨like_of_text ['\x7b'] trivial rfl (by decide), rfl, rfl⟩⟩
      by_cases hclose : c = '\x7d'
      · subst hclose
        rw [withReturns_cons (by decide), specificationStep_close, specificationStep_close]
        refine ⟨takes_of_text ['\x7d'] rfl rfl nofun, fun hsound => ?_,
          fun _ => ⟨like_of_text ['\x7d'] trivial rfl (by decide), rfl, rfl⟩⟩
        obtain ⟨hfield, hsound⟩ := hsound
        obtain ⟨behind, rfl⟩ := List.head?_eq_some_iff.mp hfield
        exact ⟨hsound, rfl⟩
      · have hends : endsSpecification c = true := by
          by_cases hends : endsSpecification c = true
          · exact hends
          · rw [List.takeWhile_cons_of_pos (by simpa using hends)] at hrun
            cases hrun
        rw [specificationStep_stray hends hopen hclose, isOrderly_giveUp] at h
        cases h
  · rw [specificationStep_run hcut hempty]
    refine ⟨takes_of_text _ rfl hparts hempty, fun hsound => ⟨hsound, rfl⟩, fun hfeed => ?_⟩
    have hfeed' : (Text.cut endsSpecification s).2.head? ≠ some '\n' := by
      rw [hcut]
      exact hfeed rfl
    have hcut' := Text.cut_withReturns (show endsSpecification '\n' = true from rfl) hfeed'
    rw [hcut] at hcut'
    rw [specificationStep_run hcut' hempty]
    have hno : '\n' ∉ run := by
      intro hmem
      rw [← hrun] at hmem
      exact absurd (List.all_eq_true.mp List.all_takeWhile _ hmem) (by decide)
    refine ⟨.formatText (returns_self ?_), rfl, rfl⟩
    rw [String.toList_ofList]
    exact hno

/-! ## Openings of strings -/

/-- How a string with these letters in front of it is quoted. -/
def quotingOf (letters : List Char) (quote : Char) (triple : Bool) : Quoting :=
  ⟨quote, triple, letters.any fun c => c = 'r' || c = 'R'⟩

theorem opening_eq (s : List Char) :
    opening s = match s.dropWhile isMarker with
      | [] => none
      | quote :: rest =>
        let letters := s.takeWhile isMarker
        if isQuote quote then
          match afterStart [quote, quote] rest, quote != '\x60' with
          | some after, true => some (letters, quotingOf letters quote true, after)
          | _, _ => some (letters, quotingOf letters quote false, rest)
        else none := by
  have htest : (fun c => !!isMarker c) = isMarker := by
    funext c
    rw [Bool.not_not]
  unfold opening Text.cut
  rw [htest]
  cases s.dropWhile isMarker with
  | nil => rfl
  | cons quote rest =>
    cases hquote : isQuote quote with
    | false => simp [hquote]
    | true =>
      simp only [hquote, Bool.not_true, Bool.false_eq_true, if_false, if_true]
      cases rest with
      | nil => rfl
      | cons second rest =>
        cases rest with
        | nil => simp [afterStart, quotingOf]
        | cons third after =>
          by_cases hsecond : second = quote
          · by_cases hthird : third = quote
            · subst hsecond hthird
              cases third != '\x60' with
              | true => simp [afterStart, quotingOf]
              | false => simp [afterStart, quotingOf]
            · simp [afterStart, quotingOf, hsecond, hthird, Ne.symm hthird]
          · simp [afterStart, quotingOf, hsecond, Ne.symm hsecond]

/-- **Strings open** in the same way. -/
theorem opening_withReturns (s : List Char) :
    opening (withReturns s) = (opening s).map fun (letters, q, rest) => (letters, q, withReturns rest) := by
  rw [opening_eq, opening_eq, Text.dropWhile_withReturns (by decide),
    Text.takeWhile_withReturns_of_not (by decide) (by decide)]
  rcases Text.withReturns_cases (s.dropWhile isMarker) with hrest | ⟨rest, hrest⟩ | ⟨quote, rest, hne, hrest⟩
  · rw [hrest]
    rfl
  · rw [hrest]
    rfl
  · rw [hrest, withReturns_cons hne]
    dsimp only
    cases hquote : isQuote quote with
    | false => rfl
    | true =>
      have hq : Quoting.Proper ⟨quote, false, false⟩ := hquote
      have hends : NoEnds [quote, quote] := by
        intro c hc
        have hc : c = quote := by simpa using hc
        rw [hc]
        exact ⟨hq.quote_ne.1, hq.quote_ne.2.1⟩
      rw [Text.afterStart_withReturns hends]
      cases afterStart [quote, quote] rest with
      | none => rfl
      | some after =>
        cases quote != '\x60' with
        | true => rfl
        | false => rfl

/-- A string opens with letters and quotes. -/
structure Opens (s letters : List Char) (q : Quoting) (rest : List Char) : Prop where
  parts : s = letters ++ q.marks ++ rest
  letters : letters.all isMarker = true
  proper : q.Proper
  /-- A string in single quotes does not start with three quotes. -/
  single : q.triple = false → q.quote ≠ '\x60' → afterStart [q.quote, q.quote] rest = none
  triple : q.triple = true → q.quote ≠ '\x60'

theorem opens_of_opening {letters rest : List Char} (h : opening s = some (letters, q, rest)) :
    Opens s letters q rest := by
  rw [opening_eq] at h
  have hparts := List.takeWhile_append_dropWhile (p := isMarker) (l := s)
  have hletters : (s.takeWhile isMarker).all isMarker = true := List.all_takeWhile
  cases hdrop : s.dropWhile isMarker with
  | nil =>
    rw [hdrop] at h
    cases h
  | cons quote behind =>
    rw [hdrop] at h hparts
    dsimp only at h
    cases hquote : isQuote quote with
    | false =>
      rw [hquote] at h
      cases h
    | true =>
      rw [hquote, if_pos rfl] at h
      cases hafter : afterStart [quote, quote] behind with
      | none =>
        rw [hafter] at h
        cases h
        refine ⟨?_, hletters, hquote, fun _ _ => hafter, nofun⟩
        rw [List.append_assoc]
        exact hparts.symm
      | some after =>
        rw [hafter] at h
        have hbehind := Text.eq_append_of_afterStart hafter
        cases htick : quote != '\x60' with
        | true =>
          rw [htick] at h
          cases h
          refine ⟨?_, hletters, hquote, nofun, fun _ => show quote ≠ '\x60' by simpa using htick⟩
          rw [List.append_assoc]
          refine hparts.symm.trans ?_
          rw [hbehind]
          rfl
        | false =>
          rw [htick] at h
          cases h
          refine ⟨?_, hletters, hquote, fun _ hne => ?_, nofun⟩
          · rw [List.append_assoc]
            exact hparts.symm
          · have hne : quote ≠ '\x60' := hne
            exact absurd htick (by simp [hne])

theorem startsWith_replicate (quote : Char) (n : Nat) (t : List Char) :
    startsWith (List.replicate n quote) (List.replicate n quote ++ t) = true := by
  rw [startsWith, Text.afterStart_append]
  rfl

theorem eq_of_isQuote {c : Char} (h : isQuote c = true) : c = '\x22' ∨ c = '\x27' ∨ c = '\x60' := by
  simpa [isQuote] using h

/-- A beginning of a text starts with nothing that the text does not start with. -/
theorem afterStart_none_of_prefix {start text rest : List Char} (htext : text <+: rest)
    (h : afterStart start rest = none) : afterStart start text = none := by
  cases hafter : afterStart start text with
  | none => rfl
  | some after =>
    obtain ⟨more, rfl⟩ := htext
    rw [Text.eq_append_of_afterStart hafter, List.append_assoc, Text.afterStart_append] at h
    cases h

/-- **The quotes in front of a string** tell whether there are three. -/
theorem Opens.isTriple_eq {letters rest text : List Char} (h : Opens s letters q rest) (htext : text <+: rest) :
    isTriple (String.ofList (letters ++ q.marks ++ text)) = q.triple := by
  have hmarker : isMarker q.quote = false := by
    rcases eq_of_isQuote h.proper with hquote | hquote | hquote
    all_goals
      rw [hquote]
      decide
  have hdrop : (letters ++ q.marks ++ text).dropWhile isMarker = q.marks ++ text := by
    obtain ⟨more, hmore⟩ := q.marks_cons
    rw [List.append_assoc, List.dropWhile_append_of_pos (List.all_eq_true.mp h.letters), hmore,
      List.cons_append, List.dropWhile_cons_of_neg (by rw [hmarker]; exact Bool.false_ne_true)]
  unfold isTriple
  rw [String.toList_ofList, hdrop]
  dsimp only
  cases htriple : q.triple with
  | true =>
    have hmarks : q.marks = List.replicate 3 q.quote := by rw [Quoting.marks, htriple]; rfl
    rw [hmarks]
    rcases eq_of_isQuote h.proper with hquote | hquote | hquote
    · rw [hquote, startsWith_replicate, Bool.true_or]
    · rw [hquote, startsWith_replicate, Bool.or_true]
    · exact absurd hquote (h.triple htriple)
  | false =>
    have hmarks : q.marks = [q.quote] := by rw [Quoting.marks, htriple]; rfl
    have hthree (quote : Char) (htick : quote ≠ '\x60') :
        startsWith (List.replicate 3 quote) (q.quote :: text) = false := by
      rw [startsWith, List.replicate_succ, afterStart]
      by_cases hquote : quote = q.quote
      · subst hquote
        rw [if_pos rfl, show List.replicate 2 q.quote = [q.quote, q.quote] from rfl,
          afterStart_none_of_prefix htext (h.single htriple htick)]
        rfl
      · rw [if_neg hquote]
        rfl
    rw [hmarks, List.singleton_append, hthree '\x22' (by decide), hthree '\x27' (by decide)]
    rfl

/-! ## Code -/

/-- The lexeme at the front of a text if it is no string and does not end a replacement field. -/
def plainStep (nesting : List Nesting) (c : Char) (rest : List Char) : Step :=
  match Number.split (c :: rest) with
  | some (.integer, text, rest) => ⟨.integer (String.ofList text), nesting, rest⟩
  | some (.float, text, rest) => ⟨.float (String.ofList text), nesting, rest⟩
  | none =>
    if isIdentifierStart c then
      ⟨.word (String.ofList (c :: rest.takeWhile isIdentifierPart)), nesting, rest.dropWhile isIdentifierPart⟩
    else match symbol? (c :: rest) with
      | some mark => ⟨.symbol mark, nestingAfter mark nesting, (c :: rest).drop mark.length⟩
      | none =>
        match c, rest with
        | '!', kind :: after =>
          if nesting.head? == some .field && kind.isLower then
            ⟨.conversion (String.ofList [c, kind]), nesting, after⟩
          else ⟨.stray (String.ofList [c]), nesting, rest⟩
        | _, _ => ⟨.stray (String.ofList [c]), nesting, rest⟩
where
  /-- What is open after a symbol. -/
  nestingAfter (mark : String) (nesting : List Nesting) : List Nesting :=
    if mark ∈ ["(", "[", "\x7b"] then .bracket :: nesting
    else if mark ∈ [")", "]", "\x7d"] && nesting.head? == some .bracket then nesting.drop 1
    else nesting

/-- Whether a character ends the expression of a replacement field. -/
def endsField (nesting : List Nesting) (c : Char) : Prop :=
  (c = '\x7d' ∨ c = ':') ∧ nesting.head? = some .field

theorem codeStep_plain {c : Char} {rest : List Char} (hopening : opening (c :: rest) = none)
    (hends : ¬endsField nesting c) : codeStep nesting (c :: rest) = plainStep nesting c rest := by
  unfold codeStep
  rw [hopening]
  dsimp only
  split
  · next heq => exact absurd ⟨Or.inl (List.cons.inj heq).1, rfl⟩ hends
  · next heq => exact absurd ⟨Or.inr (List.cons.inj heq).1, rfl⟩ hends
  · rfl

theorem codeStep_close (rest : List Char) :
    codeStep (.field :: nesting) ('\x7d' :: rest) = ⟨.fieldClose, nesting, rest⟩ := rfl

theorem codeStep_colon (rest : List Char) :
    codeStep (.field :: nesting) (':' :: rest) = ⟨.fieldColon, .specification :: .field :: nesting, rest⟩ := rfl

theorem noEnds_symbols : ∀ mark ∈ symbols, NoEnds mark.toList ∧ mark ≠ "" := by decide +kernel

/-- **Symbols** are split off in the same way. -/
theorem symbol?_withReturns (s : List Char) : symbol? (withReturns s) = symbol? s := by
  refine List.find?_congr fun mark hmark => ?_
  rw [startsWith_withReturns (noEnds_symbols mark hmark).1]

/-- A symbol is split off the front of a text. -/
theorem append_of_symbol? {mark : String} (h : symbol? s = some mark) :
    s = mark.toList ++ s.drop mark.length ∧ mark ∈ symbols := by
  have hstart : startsWith mark.toList s = true := by simpa using List.find?_some h
  obtain ⟨after, hafter⟩ := Option.isSome_iff_exists.mp hstart
  have hparts := Text.eq_append_of_afterStart hafter
  refine ⟨?_, List.mem_of_find?_eq_some h⟩
  conv => rhs; rw [hparts, ← String.length_toList, List.drop_left]
  exact hparts

/-- Brackets open and close no format strings. -/
theorem keeps_symbol (mark : String) {rest : List Char} :
    Keeps nesting ⟨.symbol mark, plainStep.nestingAfter mark nesting, rest⟩ := by
  intro hsound
  show Sound (plainStep.nestingAfter mark nesting)
    ∧ openedIn (plainStep.nestingAfter mark nesting) = openedIn nesting
  unfold plainStep.nestingAfter
  split
  · exact ⟨hsound, rfl⟩
  split
  · next hclose =>
    rw [Bool.and_eq_true, beq_iff_eq] at hclose
    obtain ⟨outer, rfl⟩ := List.head?_eq_some_iff.mp hclose.2
    exact ⟨hsound, rfl⟩
  · exact ⟨hsound, rfl⟩

section Plain

variable {c : Char} {rest : List Char}

theorem plainStep_word (hnumber : Number.split (c :: rest) = none) (hstart : isIdentifierStart c = true) :
    plainStep nesting c rest
      = ⟨.word (String.ofList (c :: rest.takeWhile isIdentifierPart)), nesting,
          rest.dropWhile isIdentifierPart⟩ := by
  unfold plainStep
  rw [hnumber]
  exact if_pos hstart

theorem plainStep_symbol {mark : String} (hnumber : Number.split (c :: rest) = none)
    (hstart : isIdentifierStart c = false) (hmark : symbol? (c :: rest) = some mark) :
    plainStep nesting c rest
      = ⟨.symbol mark, plainStep.nestingAfter mark nesting, (c :: rest).drop mark.length⟩ := by
  unfold plainStep
  rw [hnumber, hmark]
  exact if_neg (Bool.eq_false_iff.mp hstart)

theorem plainStep_conversion {kind : Char} (hnumber : Number.split ('!' :: kind :: rest) = none)
    (hmark : symbol? ('!' :: kind :: rest) = none) (hkind : (nesting.head? == some .field && kind.isLower) = true) :
    plainStep nesting '!' (kind :: rest) = ⟨.conversion (String.ofList ['!', kind]), nesting, rest⟩ := by
  unfold plainStep
  rw [hnumber, hmark]
  exact if_pos hkind

/-- What is neither a word nor a symbol is a conversion. -/
theorem conversion_of_plainStep (hnumber : Number.split (c :: rest) = none)
    (hstart : isIdentifierStart c = false) (hmark : symbol? (c :: rest) = none)
    (h : (plainStep nesting c rest).lexeme.isOrderly opened = true) :
    ∃ kind after, c = '!' ∧ rest = kind :: after ∧ (nesting.head? == some .field && kind.isLower) = true := by
  unfold plainStep at h
  rw [hnumber, hmark, hstart] at h
  dsimp only at h
  rw [if_neg Bool.false_ne_true] at h
  split at h
  · next kind after =>
    split at h
    · next hkind => exact ⟨kind, after, rfl, rfl, hkind⟩
    · cases h
  · cases h

/-- A word ends in front of a line end. -/
theorem plainStep_word_returns (hc : c ≠ '\n') (hnumber : Number.split (c :: rest) = none)
    (hnumber' : Number.split (c :: withReturns rest) = none) (hstart : isIdentifierStart c = true) :
    Takes (plainStep nesting c rest) (c :: rest) ∧ Keeps nesting (plainStep nesting c rest)
      ∧ StepReturns (plainStep nesting c rest) (plainStep nesting c (withReturns rest)) := by
  rw [plainStep_word hnumber hstart, plainStep_word hnumber' hstart,
    Text.takeWhile_withReturns_of_not (by decide) (by decide), Text.dropWhile_withReturns (by decide)]
  have hpart : '\n' ∉ rest.takeWhile isIdentifierPart := by
    intro hmem
    exact absurd (List.all_eq_true.mp List.all_takeWhile _ hmem) (by decide)
  have hfeed : '\n' ∉ c :: rest.takeWhile isIdentifierPart := by
    rw [List.mem_cons, not_or]
    exact ⟨Ne.symm hc, hpart⟩
  refine ⟨takes_of_text _ rfl ?_ nofun, fun hsound => ⟨hsound, rfl⟩, ⟨like_of_text _ ?_ rfl hfeed, rfl, rfl⟩⟩
  · rw [List.cons_append, List.takeWhile_append_dropWhile]
  · show '\n' ∉ (String.ofList _).toList
    rw [String.toList_ofList]
    exact hfeed

/-- A symbol holds no line end. -/
theorem plainStep_symbol_returns {mark : String} (hc : c ≠ '\n') (hnumber : Number.split (c :: rest) = none)
    (hnumber' : Number.split (c :: withReturns rest) = none) (hstart : isIdentifierStart c = false)
    (hmark : symbol? (c :: rest) = some mark) (hmark' : symbol? (c :: withReturns rest) = some mark) :
    Takes (plainStep nesting c rest) (c :: rest) ∧ Keeps nesting (plainStep nesting c rest)
      ∧ StepReturns (plainStep nesting c rest) (plainStep nesting c (withReturns rest)) := by
  rw [plainStep_symbol hnumber hstart hmark, plainStep_symbol hnumber' hstart hmark']
  obtain ⟨hparts, hmem⟩ := append_of_symbol? hmark
  obtain ⟨hends, hne⟩ := noEnds_symbols mark hmem
  have hfeed : '\n' ∉ mark.toList := fun hmem => (hends _ hmem).2 rfl
  have hdrop : (c :: withReturns rest).drop mark.length = withReturns ((c :: rest).drop mark.length) := by
    rw [← withReturns_cons hc]
    conv =>
      lhs
      rw [hparts, withReturns_append, withReturns_of_not_mem hfeed, ← String.length_toList, List.drop_left]
    rw [String.length_toList]
  exact ⟨⟨hparts, hne⟩, keeps_symbol mark, ⟨.same _ trivial (returns_self hfeed), rfl, hdrop⟩⟩

/-- A conversion is an exclamation mark and a letter. -/
theorem plainStep_conversion_returns (hnumber : Number.split (c :: rest) = none)
    (hnumber' : Number.split (c :: withReturns rest) = none) (hstart : isIdentifierStart c = false)
    (hmark : symbol? (c :: rest) = none) (hmark' : symbol? (c :: withReturns rest) = none)
    (h : (plainStep nesting c rest).lexeme.isOrderly opened = true) :
    Takes (plainStep nesting c rest) (c :: rest) ∧ Keeps nesting (plainStep nesting c rest)
      ∧ StepReturns (plainStep nesting c rest) (plainStep nesting c (withReturns rest)) := by
  obtain ⟨kind, after, rfl, rfl, hkind⟩ := conversion_of_plainStep hnumber hstart hmark h
  have hfeed : kind ≠ '\n' := by
    rintro rfl
    rw [Bool.and_eq_true] at hkind
    exact absurd hkind.2 (by decide)
  rw [withReturns_cons hfeed] at hnumber' hmark' ⊢
  rw [plainStep_conversion hnumber hmark hkind, plainStep_conversion hnumber' hmark' hkind]
  exact ⟨takes_of_text ['!', kind] rfl rfl nofun, fun hsound => ⟨hsound, rfl⟩,
    ⟨like_of_text ['!', kind] trivial rfl (by simpa using Ne.symm hfeed), rfl, rfl⟩⟩

/-- **The lexeme at the front of a text**, if it is no string. -/
theorem plainStep_returns (hc : c ≠ '\n') (h : (plainStep nesting c rest).lexeme.isOrderly opened = true) :
    Takes (plainStep nesting c rest) (c :: rest) ∧ Keeps nesting (plainStep nesting c rest)
      ∧ StepReturns (plainStep nesting c rest) (plainStep nesting c (withReturns rest)) := by
  have hnumber := Number.split_withReturns (c :: rest)
  rw [withReturns_cons hc] at hnumber
  rcases hnumber with ⟨hnone, hnone'⟩ | ⟨kind, text, after, hsome, hsome', hparts, hne, hfeed⟩
  · cases hstart : isIdentifierStart c with
    | true => exact plainStep_word_returns hc hnone hnone' hstart
    | false =>
      have hsymbol := symbol?_withReturns (c :: rest)
      rw [withReturns_cons hc] at hsymbol
      cases hmark : symbol? (c :: rest) with
      | some mark => exact plainStep_symbol_returns hc hnone hnone' hstart hmark (hsymbol.trans hmark)
      | none => exact plainStep_conversion_returns hnone hnone' hstart hmark (hsymbol.trans hmark) h
  · unfold plainStep
    rw [hsome, hsome']
    cases kind with
    | integer =>
      exact ⟨takes_of_text _ rfl hparts hne, fun hsound => ⟨hsound, rfl⟩,
        ⟨like_of_text _ trivial rfl hfeed, rfl, rfl⟩⟩
    | float =>
      exact ⟨takes_of_text _ rfl hparts hne, fun hsound => ⟨hsound, rfl⟩,
        ⟨like_of_text _ trivial rfl hfeed, rfl, rfl⟩⟩

end Plain

theorem codeStep_format {letters rest : List Char} (h : opening s = some (letters, q, rest))
    (hformat : (letters.any fun c => c = 'f' || c = 'F') = true) :
    codeStep nesting s = ⟨.formatOpen (String.ofList (letters ++ q.marks)), .text q :: nesting, rest⟩ := by
  unfold codeStep
  rw [h]
  exact if_pos hformat

theorem codeStep_string {letters rest : List Char} (h : opening s = some (letters, q, rest))
    (hformat : (letters.any fun c => c = 'f' || c = 'F') = false) :
    codeStep nesting s = match body q true rest with
      | some (text, rest) => ⟨.string (String.ofList (letters ++ q.marks ++ text)), nesting, rest⟩
      | none => giveUp s := by
  unfold codeStep
  rw [h]
  exact if_neg (Bool.eq_false_iff.mp hformat)

/-- What stands in front of the text of a string. -/
theorem Opens.start_free {letters rest : List Char} (h : Opens s letters q rest) :
    '\n' ∉ letters ++ q.marks ∧ '\\' ∉ letters ++ q.marks := by
  rw [List.mem_append, List.mem_append, not_or, not_or]
  refine ⟨⟨fun hmem => ?_, fun hmem => (h.proper.noEnds _ hmem).2 rfl⟩,
    fun hmem => ?_, fun hmem => h.proper.quote_ne.2.2 (Quoting.eq_of_mem_marks hmem).symm⟩
  · exact absurd (List.all_eq_true.mp h.letters _ hmem) (by decide)
  · exact absurd (List.all_eq_true.mp h.letters _ hmem) (by decide)

/-- The opening of a format string. -/
theorem codeStep_format_returns {letters rest : List Char} (hopen : opening s = some (letters, q, rest))
    (hopen' : opening (withReturns s) = some (letters, q, withReturns rest))
    (hformat : (letters.any fun c => c = 'f' || c = 'F') = true) :
    Takes (codeStep nesting s) s ∧ Keeps nesting (codeStep nesting s)
      ∧ StepReturns (codeStep nesting s) (codeStep nesting (withReturns s)) := by
  have hopens := opens_of_opening hopen
  obtain ⟨more, hmore⟩ := q.marks_cons
  rw [codeStep_format hopen hformat, codeStep_format hopen' hformat]
  refine ⟨takes_of_text _ rfl hopens.parts (by simp [hmore]), fun hsound => ⟨⟨hopens.proper, hsound⟩, ?_⟩,
    ⟨like_of_text _ trivial rfl hopens.start_free.1, rfl, rfl⟩⟩
  have htriple := hopens.isTriple_eq (List.nil_prefix (l := rest))
  rw [List.append_nil] at htriple
  rw [openedIn, Lexeme.openedAfter, htriple]

/-- A whole string. -/
theorem codeStep_string_returns {letters rest : List Char} (hs : '\r' ∉ s)
    (hopen : opening s = some (letters, q, rest))
    (hopen' : opening (withReturns s) = some (letters, q, withReturns rest))
    (hformat : (letters.any fun c => c = 'f' || c = 'F') = false)
    (h : (codeStep nesting s).lexeme.isOrderly opened = true) :
    Takes (codeStep nesting s) s ∧ Keeps nesting (codeStep nesting s)
      ∧ StepReturns (codeStep nesting s) (codeStep nesting (withReturns s)) := by
  have hopens := opens_of_opening hopen
  obtain ⟨hstart, hback⟩ := hopens.start_free
  obtain ⟨more, hmore⟩ := q.marks_cons
  rw [codeStep_string hopen hformat] at h ⊢
  rw [codeStep_string hopen' hformat]
  cases hbody : body q true rest with
  | none =>
    rw [hbody, isOrderly_giveUp] at h
    cases h
  | some found =>
    obtain ⟨text, after⟩ := found
    rw [hbody] at h
    have hparts := (append_of_body hbody).1
    have hadmits : q.Admits text := by
      rw [Lexeme.isOrderly, hopens.isTriple_eq ⟨after, hparts.symm⟩, String.toList_ofList,
        bareFeed_append hback hstart, Bool.or_eq_true, Bool.not_eq_true'] at h
      exact h
    have hrest : '\r' ∉ rest := by
      intro hmem
      rw [hopens.parts] at hs
      exact hs (List.mem_append_right _ hmem)
    rw [body_withReturns hopens.proper hrest hbody hadmits true]
    refine ⟨takes_of_text _ rfl ?_ (by simp [hmore]), fun hsound => ⟨hsound, rfl⟩, ⟨.string ?_, rfl, rfl⟩⟩
    · rw [List.append_assoc, ← hparts]
      exact hopens.parts
    · have hlike := returns_ofList (letters ++ q.marks ++ text)
      rw [withReturns_append, withReturns_of_not_mem hstart] at hlike
      exact hlike

/-- A character that ends the expression of a replacement field. -/
theorem codeStep_end_returns {c : Char} {rest : List Char} (hends : endsField nesting c) :
    Takes (codeStep nesting (c :: rest)) (c :: rest) ∧ Keeps nesting (codeStep nesting (c :: rest))
      ∧ StepReturns (codeStep nesting (c :: rest)) (codeStep nesting (c :: withReturns rest)) := by
  obtain ⟨hends, hfield⟩ := hends
  obtain ⟨outer, rfl⟩ := List.head?_eq_some_iff.mp hfield
  rcases hends with rfl | rfl
  · rw [codeStep_close, codeStep_close]
    exact ⟨takes_of_text ['\x7d'] rfl rfl nofun, fun hsound => ⟨hsound, rfl⟩,
      ⟨like_of_text ['\x7d'] trivial rfl (by decide), rfl, rfl⟩⟩
  · rw [codeStep_colon, codeStep_colon]
    exact ⟨takes_of_text [':'] rfl rfl nofun, fun hsound => ⟨⟨rfl, hsound⟩, rfl⟩,
      ⟨like_of_text [':'] trivial rfl (by decide), rfl, rfl⟩⟩

/-- **The lexeme at the front of a text** in which code stands. -/
theorem codeStep_returns (hs : '\r' ∉ s) (hne : s ≠ []) (hfeed : s.head? ≠ some '\n')
    (h : (codeStep nesting s).lexeme.isOrderly opened = true) :
    Takes (codeStep nesting s) s ∧ Keeps nesting (codeStep nesting s)
      ∧ StepReturns (codeStep nesting s) (codeStep nesting (withReturns s)) := by
  have hopening := opening_withReturns s
  cases hopen : opening s with
  | some found =>
    obtain ⟨letters, q, rest⟩ := found
    rw [hopen, Option.map_some] at hopening
    cases hformat : letters.any fun c => c = 'f' || c = 'F' with
    | true => exact codeStep_format_returns hopen hopening hformat
    | false => exact codeStep_string_returns hs hopen hopening hformat h
  | none =>
    rw [hopen] at hopening
    obtain ⟨c, rest, rfl⟩ := List.exists_cons_of_ne_nil hne
    have hc : c ≠ '\n' := fun hc => hfeed (congrArg some hc)
    rw [withReturns_cons hc] at hopening ⊢
    by_cases hends : endsField nesting c
    · exact codeStep_end_returns hends
    · rw [codeStep_plain hopen hends] at h ⊢
      rw [codeStep_plain hopening hends]
      exact plainStep_returns hc h

end Lexer

end ClassCli.Source
