import ClassCli.Source.Lexer
import ClassCli.Proofs.Text.LineEnds

/-!
# Strings and line ends

A string reaches to its closing quotes, whatever stands at the ends of the lines inside it. Inside single
quotes a line feed has to have a backslash in front of it; such a pair is also taken together if a carriage
return stands between the two.

* **`bareFeed`** — whether a line feed stands without a backslash.
* **`body_withReturns`** — the text of a string up to its closing quotes.
* **`formatRun_withReturns`** — the text of a format string up to its next piece.
-/

namespace ClassCli.Source.Lexer

open Text (NoEnds afterStart startsWith startsWith_withReturns withReturns withReturns_append withReturns_cases
  withReturns_cons withReturns_feed withReturns_of_not_mem)

/-! ## Line feeds in strings -/

/-- Whether a text holds a line feed without a backslash; `escaped` says whether one stands in front of the
text. -/
def bareFeed : Bool → List Char → Bool
  | _, [] => false
  | true, _ :: rest => bareFeed false rest
  | false, c :: rest => c == '\n' || bareFeed (c == '\\') rest

/-- Whether a string may have this text: inside single quotes no line feed stands without a backslash. -/
def Quoting.Admits (q : Quoting) (text : List Char) : Prop := q.triple = true ∨ bareFeed false text = false

/-- The quotes are quotes, not line ends. -/
def Quoting.Proper (q : Quoting) : Prop := isQuote q.quote = true

variable {q : Quoting} {fresh : Bool} {c next : Char} {s text rest after : List Char}

theorem Quoting.Proper.quote_ne (h : q.Proper) : q.quote ≠ '\r' ∧ q.quote ≠ '\n' ∧ q.quote ≠ '\\' := by
  refine ⟨?_, ?_, ?_⟩
  all_goals
    intro hquote
    rw [Quoting.Proper, hquote] at h
    exact absurd h (by decide)

theorem Quoting.marks_cons (q : Quoting) : ∃ more, q.marks = q.quote :: more := by
  cases htriple : q.triple with
  | true => exact ⟨List.replicate 2 q.quote, by rw [Quoting.marks, htriple]; rfl⟩
  | false => exact ⟨[], by rw [Quoting.marks, htriple]; rfl⟩

theorem Quoting.eq_of_mem_marks (h : c ∈ q.marks) : c = q.quote := by
  unfold Quoting.marks at h
  exact List.eq_of_mem_replicate h

theorem Quoting.Proper.noEnds (h : q.Proper) : NoEnds q.marks := by
  intro c hc
  rw [Quoting.eq_of_mem_marks hc]
  exact ⟨h.quote_ne.1, h.quote_ne.2.1⟩

/-- Closing quotes start with a quote. -/
theorem startsWith_marks_of_ne (h : c ≠ q.quote) (rest : List Char) :
    startsWith q.marks (c :: rest) = false := by
  obtain ⟨more, hmore⟩ := q.marks_cons
  rw [hmore, startsWith, afterStart, if_neg (Ne.symm h)]
  rfl

/-- What stands behind closing quotes. -/
theorem drop_marks (h : startsWith q.marks s = true) : s = q.marks ++ s.drop q.marks.length := by
  obtain ⟨after, hafter⟩ := Option.isSome_iff_exists.mp h
  rw [Text.eq_append_of_afterStart hafter, List.drop_left]

theorem pairs_feed (q : Quoting) : pairs q '\n' = true := by
  unfold pairs
  split
  · simp
  · decide

theorem ne_of_not_pairs (h : pairs q next = false) : next ≠ '\n' ∧ next ≠ '\\' := by
  refine ⟨?_, ?_⟩
  · rintro rfl
    rw [pairs_feed] at h
    cases h
  · rintro rfl
    unfold pairs at h
    split at h
    · simp at h
    · exact absurd h (by decide)

/-! ## Bare line feeds -/

theorem bareFeed_cons (hc : c ≠ '\\') (s : List Char) :
    bareFeed false (c :: s) = (c == '\n' || bareFeed false s) := by
  rw [bareFeed, beq_eq_false_iff_ne.mpr hc]

theorem bareFeed_pair (next : Char) (s : List Char) :
    bareFeed false ('\\' :: next :: s) = bareFeed false s := rfl

/-- What stands in front of a string does not matter. -/
theorem bareFeed_append {front : List Char} (hback : '\\' ∉ front) (hfeed : '\n' ∉ front) (s : List Char) :
    bareFeed false (front ++ s) = bareFeed false s := by
  induction front with
  | nil => rfl
  | cons c front ih =>
    rw [List.mem_cons, not_or] at hback hfeed
    rw [List.cons_append, bareFeed_cons (Ne.symm hback.1), ih hback.2 hfeed.2,
      beq_eq_false_iff_ne.mpr (Ne.symm hfeed.1), Bool.false_or]

namespace Quoting.Admits

theorem of_cons (h : q.Admits (c :: text)) (hc : c ≠ '\\') : q.Admits text := by
  refine h.imp_right fun hbare => ?_
  rw [bareFeed_cons hc, Bool.or_eq_false_iff] at hbare
  exact hbare.2

theorem of_pair (h : q.Admits ('\\' :: next :: text)) : q.Admits text := h

/-- A backslash by itself does not stand for a line feed behind it. -/
theorem of_single (h : q.Admits ('\\' :: next :: text)) (hfeed : next ≠ '\n') (hback : next ≠ '\\') :
    q.Admits (next :: text) := by
  refine h.imp_right fun hbare => ?_
  rw [bareFeed_pair] at hbare
  rw [bareFeed_cons hback, hbare, beq_eq_false_iff_ne.mpr hfeed]
  rfl

theorem triple_of_feed (h : q.Admits ('\n' :: text)) : q.triple = true := by
  rcases h with h | h
  · exact h
  · cases h

end Quoting.Admits

/-! ## Whole strings -/

/-- A string one character longer. -/
def prepend (front : List Char) (found : Option (List Char × List Char)) : Option (List Char × List Char) :=
  found.map fun (text, after) => (front ++ text, after)

theorem exists_of_prepend (front : List Char) (found : Option (List Char × List Char))
    (h : prepend front found = some (text, rest)) : ∃ more, found = some (more, rest) ∧ text
      = front ++ more := by
  obtain ⟨⟨more, after⟩, hfound, h⟩ := Option.map_eq_some_iff.mp h
  cases h
  exact ⟨more, hfound, rfl⟩

theorem body_join :
    body q fresh ('\\' :: '\r' :: '\n' :: after) = prepend ['\\', '\r', '\n'] (body q true after) := by
  rw [body]
  rfl

theorem body_pair (hreturn : next ≠ '\r') (hpair : pairs q next = true) :
    body q fresh ('\\' :: next :: after) = prepend ['\\', next] (body q true after) := by
  rw [body]
  · rw [if_neg (by decide), if_pos rfl, if_pos hpair]
    rfl
  · intro _ hnext
    exact absurd hnext hreturn

theorem body_single (hreturn : next ≠ '\r') (hpair : pairs q next = false) :
    body q fresh ('\\' :: next :: after) = prepend ['\\'] (body q true (next :: after)) := by
  rw [body]
  · rw [if_neg (by decide), if_pos rfl, if_neg (by rw [hpair]; exact Bool.false_ne_true)]
    rfl
  · intro _ hnext
    exact absurd hnext hreturn

/-- A character that neither ends the string nor breaks it off. -/
structure Runs (q : Quoting) (fresh : Bool) (c : Char) (rest : List Char) : Prop where
  null : c ≠ '\x00'
  backslash : c ≠ '\\'
  inside : startsWith q.marks (c :: rest) = false
  line : (decide (c = '\n') && !q.triple && !fresh) = false

theorem body_runs (h : Runs q fresh c rest) : body q fresh (c :: rest) = prepend [c] (body q false rest) := by
  rw [body.eq_def]
  dsimp only
  rw [if_neg h.null, if_neg h.backslash, h.inside, h.line, if_neg Bool.false_ne_true, if_neg Bool.false_ne_true]
  rfl

theorem body_close (hnull : c ≠ '\x00') (hback : c ≠ '\\') (h : startsWith q.marks (c :: rest) = true) :
    body q fresh (c :: rest) = some (q.marks, (c :: rest).drop q.marks.length) := by
  rw [body.eq_def]
  dsimp only
  rw [if_neg hnull, if_neg hback, if_pos h]

/-- The carriage return in front of a line feed runs on, and so does the line feed inside three quotes. -/
theorem runs_return (hq : q.Proper) (rest : List Char) : Runs q fresh '\r' rest where
  null := by decide
  backslash := by decide
  inside := startsWith_marks_of_ne (Ne.symm hq.quote_ne.1) rest
  line := rfl

theorem runs_feed (hq : q.Proper) (htriple : q.triple = true) (rest : List Char) : Runs q fresh '\n' rest where
  null := by decide
  backslash := by decide
  inside := startsWith_marks_of_ne (Ne.symm hq.quote_ne.2.1) rest
  line := by rw [htriple]; rfl

theorem Runs.withReturns {fresh' : Bool} (hq : q.Proper) (h : Runs q fresh c rest) (hc : c ≠ '\n') :
    Runs q fresh' c (withReturns rest) where
  null := h.null
  backslash := h.backslash
  inside := by
    rw [← withReturns_cons hc, startsWith_withReturns hq.noEnds]
    exact h.inside
  line := by rw [decide_eq_false hc]; rfl

theorem prepend_withReturns (front text rest : List Char) :
    prepend (withReturns front) (some (withReturns text, withReturns rest))
      = some (withReturns (front ++ text), withReturns rest) := by
  rw [withReturns_append]
  rfl

/-- A backslash and what it pairs with: a carriage return between the two does not part them. -/
theorem body_pair_withReturns (hreturn : next ≠ '\r') (hpair : pairs q next = true) :
    body q fresh (withReturns ('\\' :: next :: after))
      = prepend (withReturns ['\\', next]) (body q true (withReturns after)) := by
  rw [withReturns_cons (c := '\\') (by decide), withReturns_cons (c := '\\') (by decide)]
  by_cases hnext : next = '\n'
  · rw [hnext, withReturns_feed, withReturns_feed]
    exact body_join
  · rw [withReturns_cons hnext, withReturns_cons hnext]
    exact body_pair hreturn hpair

/-- A line feed runs on inside three quotes, and so does the carriage return in front of it. -/
theorem body_runs_withReturns {fresh' : Bool} (hq : q.Proper) (h : Runs q fresh c rest)
    (htriple : c = '\n' → q.triple = true) :
    body q fresh' (withReturns (c :: rest)) = prepend (withReturns [c]) (body q false (withReturns rest)) := by
  by_cases hc : c = '\n'
  · rw [hc, withReturns_feed, withReturns_feed, body_runs (runs_return hq _),
      body_runs (runs_feed hq (htriple hc) _)]
    cases body q false (withReturns rest) <;> rfl
  · rw [withReturns_cons hc, withReturns_cons hc]
    exact body_runs (h.withReturns hq hc)

/-- A string is split off the front of a text. -/
theorem append_of_body (h : body q fresh s = some (text, rest)) : s = text ++ rest ∧ text ≠ [] := by
  fun_induction body q fresh s generalizing text rest with
  | case1 => cases h
  | case2 => cases h
  | case3 fresh after hnull ih =>
    obtain ⟨more, hmore, rfl⟩ := exists_of_prepend ['\\', '\r', '\n'] (body q true after) h
    exact ⟨by rw [(ih hmore).1]; rfl, by simp⟩
  | case4 fresh next after hreturn hpair hnull ih =>
    obtain ⟨more, hmore, rfl⟩ := exists_of_prepend ['\\', next] (body q true after) h
    exact ⟨by rw [(ih hmore).1]; rfl, by simp⟩
  | case5 fresh next after hreturn hpair hnull ih =>
    obtain ⟨more, hmore, rfl⟩ := exists_of_prepend ['\\'] (body q true (next :: after)) h
    exact ⟨by rw [(ih hmore).1]; rfl, by simp⟩
  | case6 => cases h
  | case7 fresh c rest hnull hback hclose =>
    cases h
    obtain ⟨more, hmore⟩ := q.marks_cons
    exact ⟨drop_marks hclose, by rw [hmore]; simp⟩
  | case8 => cases h
  | case9 fresh c behind hnull hback hinside hline ih =>
    obtain ⟨more, hmore, rfl⟩ := exists_of_prepend [c] (body q false behind) h
    exact ⟨by rw [(ih hmore).1]; rfl, by simp⟩

/-- **A string with carriage returns** has the same text, with carriage returns. -/
theorem body_withReturns (hq : q.Proper) (hs : '\r' ∉ s) (h : body q fresh s = some (text, rest))
    (hadmits : q.Admits text) (fresh' : Bool) :
    body q fresh' (withReturns s) = some (withReturns text, withReturns rest) := by
  fun_induction body q fresh s generalizing text rest fresh' with
  | case1 => cases h
  | case2 => cases h
  | case3 => simp at hs
  | case4 fresh next after hreturn hpair hnull ih =>
    obtain ⟨more, hmore, rfl⟩ := exists_of_prepend ['\\', next] (body q true after) h
    simp only [List.mem_cons, not_or] at hs
    rw [body_pair_withReturns (Ne.symm hs.2.1) hpair, ih hs.2.2 hmore hadmits.of_pair true, prepend_withReturns]
  | case5 fresh next after hreturn hpair hnull ih =>
    obtain ⟨more, hmore, rfl⟩ := exists_of_prepend ['\\'] (body q true (next :: after)) h
    simp only [List.mem_cons, not_or] at hs
    have hpair : pairs q next = false := Bool.eq_false_iff.mpr hpair
    obtain ⟨hparts, hne⟩ := append_of_body hmore
    obtain ⟨d, more, rfl⟩ := List.exists_cons_of_ne_nil hne
    obtain ⟨rfl, -⟩ := List.cons.inj hparts
    obtain ⟨hfeed, hback⟩ := ne_of_not_pairs hpair
    have hrest := ih (by simpa using hs.2) hmore (hadmits.of_single hfeed hback) true
    rw [withReturns_cons hfeed] at hrest
    rw [withReturns_cons (by decide), withReturns_cons hfeed, body_single (Ne.symm hs.2.1) hpair, hrest]
    exact prepend_withReturns ['\\'] (next :: more) rest
  | case6 => cases h
  | case7 fresh c rest hnull hback hclose =>
    cases h
    have hc : c ≠ '\n' := by
      rintro rfl
      rw [startsWith_marks_of_ne (Ne.symm hq.quote_ne.2.1)] at hclose
      cases hclose
    have hmarks : withReturns q.marks = q.marks := withReturns_of_not_mem fun hmem => (hq.noEnds _ hmem).2 rfl
    have hparts := congrArg withReturns (drop_marks hclose)
    rw [withReturns_append, hmarks] at hparts
    have hclose' : startsWith q.marks (withReturns (c :: rest)) = true := by
      rw [startsWith_withReturns hq.noEnds, hclose]
    rw [withReturns_cons hc] at hclose' hparts ⊢
    rw [body_close hnull hback hclose', hparts, List.drop_left, hmarks]
  | case8 => cases h
  | case9 fresh c behind hnull hback hinside hline ih =>
    obtain ⟨more, hmore, rfl⟩ := exists_of_prepend [c] (body q false behind) h
    simp only [List.mem_cons, not_or] at hs
    have hruns : Runs q fresh c behind :=
      ⟨hnull, hback, Bool.eq_false_iff.mpr hinside, Bool.eq_false_iff.mpr hline⟩
    have htriple : c = '\n' → q.triple = true := by
      rintro rfl
      exact hadmits.triple_of_feed
    rw [body_runs_withReturns hq hruns htriple, ih hs.2 hmore (hadmits.of_cons hback) false,
      prepend_withReturns]

/-! ## Runs of text in format strings -/

/-- A run of text one or two characters longer. -/
def extend (front : List Char) (found : List Char × List Char) :
    List Char × List Char := (front ++ found.1, found.2)

/-- Whether a character is a brace. -/
abbrev isBrace (c : Char) : Bool := c = '\x7b' || c = '\x7d'

theorem ne_of_isBrace (h : isBrace c = true) : c ≠ '\r' ∧ c ≠ '\n' ∧ c ≠ '\\' := by
  refine ⟨?_, ?_, ?_⟩
  all_goals
    rintro rfl
    exact absurd h (by decide)

theorem formatRun_double (hnull : c ≠ '\x00') (hbrace : isBrace c = true) :
    formatRun q fresh (c :: c :: after) = extend [c, c] (formatRun q true after) := by
  rw [formatRun.eq_def]
  dsimp only
  rw [if_neg hnull, if_pos hbrace, if_pos rfl]
  rfl

/-- A brace by itself ends the run. -/
theorem formatRun_brace (hnull : c ≠ '\x00') (hbrace : isBrace c = true) (hnext : rest.head? ≠ some c) :
    formatRun q fresh (c :: rest) = ([], c :: rest) := by
  rw [formatRun.eq_def]
  dsimp only
  rw [if_neg hnull, if_pos hbrace]
  cases rest with
  | nil => rfl
  | cons next after => exact if_neg fun heq => hnext (congrArg some heq)

theorem formatRun_join :
    formatRun q fresh ('\\' :: '\r' :: '\n' :: after) = extend ['\\', '\r', '\n'] (formatRun q true after) := by
  rw [formatRun]
  rfl

/-- A backslash is taken together with what it pairs with, a brace apart, and by itself otherwise. -/
theorem formatRun_backslash (hreturn : next ≠ '\r') :
    formatRun q fresh ('\\' :: next :: after)
      = if pairs q next && next != '\x7b' && next != '\x7d' then extend ['\\', next] (formatRun q true after)
        else extend ['\\'] (formatRun q true (next :: after)) := by
  rw [formatRun.eq_def]
  dsimp only
  rw [if_neg (by decide), if_neg (by decide), if_pos rfl]
  split
  · next heq => exact absurd (List.cons.inj heq).1 hreturn
  · next heq =>
    obtain ⟨rfl, rfl⟩ := List.cons.inj heq
    rfl
  · next heq => cases heq

theorem formatRun_pair (hreturn : next ≠ '\r')
    (hpair : (pairs q next && next != '\x7b' && next != '\x7d') = true) :
    formatRun q fresh ('\\' :: next :: after) = extend ['\\', next] (formatRun q true after) := by
  rw [formatRun_backslash hreturn, if_pos hpair]

theorem formatRun_single (hreturn : next ≠ '\r')
    (hpair : (pairs q next && next != '\x7b' && next != '\x7d') = false) :
    formatRun q fresh ('\\' :: next :: after) = extend ['\\'] (formatRun q true (next :: after)) := by
  rw [formatRun_backslash hreturn, hpair, if_neg Bool.false_ne_true]

theorem formatRun_runs (hbrace : isBrace c = false) (h : Runs q fresh c rest) :
    formatRun q fresh (c :: rest) = extend [c] (formatRun q false rest) := by
  rw [formatRun.eq_def]
  dsimp only
  rw [if_neg h.null, if_neg (Bool.eq_false_iff.mp hbrace), if_neg h.backslash, h.inside, h.line,
    if_neg Bool.false_ne_true, if_neg Bool.false_ne_true]
  rfl

/-- Closing quotes end the run. -/
theorem formatRun_close (hnull : c ≠ '\x00') (hbrace : isBrace c = false) (hback : c ≠ '\\')
    (h : startsWith q.marks (c :: rest) = true) : formatRun q fresh (c :: rest) = ([], c :: rest) := by
  rw [formatRun.eq_def]
  dsimp only
  rw [if_neg hnull, if_neg (Bool.eq_false_iff.mp hbrace), if_neg hback, if_pos h]

/-- A run of text is split off the front of a text. -/
theorem append_of_formatRun (h : formatRun q fresh s = (text, rest)) : s = text ++ rest := by
  fun_induction formatRun q fresh s generalizing text rest with
  | case3 fresh next after letters rest' hrun hnull hbrace ih =>
    cases h
    rw [ih hrun]
    rfl
  | case6 fresh after letters rest' hrun hnull hbrace ih =>
    cases h
    rw [ih hrun]
    rfl
  | case7 fresh next after hreturn hpair letters rest' hrun hnull hbrace ih =>
    cases h
    rw [ih hrun]
    rfl
  | case8 fresh next after hreturn hpair letters rest' hrun hnull hbrace ih =>
    cases h
    rw [ih hrun]
    rfl
  | case12 fresh c behind hnull hbrace hback hinside hline letters rest' hrun ih =>
    cases h
    rw [ih hrun]
    rfl
  | _ =>
    cases h
    rfl

/-- What does not pair with a backslash is no line feed and no backslash. -/
theorem ne_of_not_formatPairs (h : (pairs q next && next != '\x7b' && next != '\x7d') = false) :
    next ≠ '\n' ∧ next ≠ '\\' := by
  rw [Bool.and_assoc, Bool.and_eq_false_iff] at h
  rcases h with h | h
  · exact ne_of_not_pairs h
  · refine ⟨?_, ?_⟩
    · rintro rfl
      exact absurd h (by decide)
    · rintro rfl
      exact absurd h (by decide)

theorem extend_withReturns (front text rest : List Char) :
    extend (withReturns front) (withReturns text, withReturns rest)
      = (withReturns (front ++ text), withReturns rest) := by
  rw [withReturns_append]
  rfl

/-- A brace by itself also ends the run if a carriage return stands behind it. -/
theorem formatRun_brace_withReturns (hnull : c ≠ '\x00') (hbrace : isBrace c = true)
    (hnext : rest.head? ≠ some c) :
    formatRun q fresh (withReturns (c :: rest)) = ([], withReturns (c :: rest)) := by
  obtain ⟨hreturn, hfeed, -⟩ := ne_of_isBrace hbrace
  rw [withReturns_cons hfeed]
  refine formatRun_brace hnull hbrace ?_
  rcases withReturns_cases rest with rfl | ⟨behind, rfl⟩ | ⟨d, behind, hd, rfl⟩
  · exact hnext
  · rw [withReturns_feed, List.head?_cons]
    exact fun heq => hreturn (Option.some.inj heq).symm
  · rw [withReturns_cons hd]
    exact hnext

/-- A backslash and what it pairs with: a carriage return between the two does not part them. -/
theorem formatRun_pair_withReturns (hreturn : next ≠ '\r')
    (hpair : (pairs q next && next != '\x7b' && next != '\x7d') = true) :
    formatRun q fresh (withReturns ('\\' :: next :: after))
      = extend (withReturns ['\\', next]) (formatRun q true (withReturns after)) := by
  rw [withReturns_cons (c := '\\') (by decide), withReturns_cons (c := '\\') (by decide)]
  by_cases hnext : next = '\n'
  · rw [hnext, withReturns_feed, withReturns_feed]
    exact formatRun_join
  · rw [withReturns_cons hnext, withReturns_cons hnext]
    exact formatRun_pair hreturn hpair

/-- A line feed runs on inside three quotes, and so does the carriage return in front of it. -/
theorem formatRun_runs_withReturns {fresh' : Bool} (hq : q.Proper) (hbrace : isBrace c = false)
    (h : Runs q fresh c rest) (htriple : c = '\n' → q.triple = true) :
    formatRun q fresh' (withReturns (c :: rest))
      = extend (withReturns [c]) (formatRun q false (withReturns rest)) := by
  by_cases hc : c = '\n'
  · rw [hc, withReturns_feed, withReturns_feed, formatRun_runs rfl (runs_return hq _),
      formatRun_runs rfl (runs_feed hq (htriple hc) _)]
    rfl
  · rw [withReturns_cons hc, withReturns_cons hc]
    exact formatRun_runs hbrace (h.withReturns hq hc)

/-- Closing quotes are found behind the same run. -/
theorem formatRun_close_withReturns (hq : q.Proper) (hnull : c ≠ '\x00') (hbrace : isBrace c = false)
    (hback : c ≠ '\\') (hc : c ≠ '\n') (h : startsWith q.marks (c :: rest) = true) :
    formatRun q fresh (withReturns (c :: rest)) = ([], withReturns (c :: rest)) := by
  rw [← startsWith_withReturns hq.noEnds] at h
  rw [withReturns_cons hc] at h ⊢
  exact formatRun_close hnull hbrace hback h

/-- **A run of text with carriage returns** is the same run, with carriage returns, unless the string breaks
off at a line feed. -/
theorem formatRun_withReturns (hq : q.Proper) (hs : '\r' ∉ s) (h : formatRun q fresh s = (text, rest))
    (hadmits : q.Admits text) (hfeed : rest.head? ≠ some '\n') (fresh' : Bool) :
    formatRun q fresh' (withReturns s) = (withReturns text, withReturns rest) := by
  fun_induction formatRun q fresh s generalizing text rest fresh' with
  | case1 =>
    cases h
    rfl
  | case2 fresh rest =>
    cases h
    rw [withReturns_cons (by decide), formatRun.eq_def]
    rfl
  | case3 fresh next after letters behind hrun hnull hbrace ih =>
    cases h
    simp only [List.mem_cons, not_or] at hs
    obtain ⟨-, hnext, hback⟩ := ne_of_isBrace hbrace
    have hrest := ih hs.2.2 hrun ((hadmits.of_cons hback).of_cons hback) hfeed true
    rw [withReturns_cons hnext, withReturns_cons hnext, formatRun_double hnull hbrace, hrest,
      withReturns_cons hnext, withReturns_cons hnext]
    rfl
  | case4 fresh c hnull hbrace next after hnext =>
    cases h
    exact formatRun_brace_withReturns hnull hbrace fun heq => hnext (Option.some.inj heq)
  | case5 fresh c hnull hbrace =>
    cases h
    exact formatRun_brace_withReturns hnull hbrace (by simp)
  | case6 => simp at hs
  | case7 fresh next after hreturn hpair letters behind hrun hnull hbrace ih =>
    cases h
    simp only [List.mem_cons, not_or] at hs
    rw [formatRun_pair_withReturns (Ne.symm hs.2.1) hpair, ih hs.2.2 hrun hadmits.of_pair hfeed true]
    exact extend_withReturns ['\\', next] letters behind
  | case8 fresh next after hreturn hpair letters behind hrun hnull hbrace ih =>
    cases h
    simp only [List.mem_cons, not_or] at hs
    have hpair : (pairs q next && next != '\x7b' && next != '\x7d') = false := Bool.eq_false_iff.mpr hpair
    obtain ⟨hnext, hback⟩ := ne_of_not_formatPairs hpair
    have hletters : q.Admits letters := by
      cases letters with
      | nil => exact Or.inr rfl
      | cons d letters =>
        obtain ⟨rfl, -⟩ := List.cons.inj (append_of_formatRun hrun)
        exact hadmits.of_single hnext hback
    have hrest := ih (by simpa using hs.2) hrun hletters hfeed true
    rw [withReturns_cons hnext] at hrest
    rw [withReturns_cons (by decide), withReturns_cons hnext, formatRun_single (Ne.symm hs.2.1) hpair, hrest]
    exact extend_withReturns ['\\'] letters behind
  | case9 =>
    cases h
    rfl
  | case10 fresh c rest hnull hbrace hback hclose =>
    cases h
    have hc : c ≠ '\n' := fun hc => hfeed (by rw [hc]; rfl)
    exact formatRun_close_withReturns hq hnull (Bool.eq_false_iff.mpr hbrace) hback hc hclose
  | case11 fresh c rest hnull hbrace hback hinside hline =>
    cases h
    simp only [Bool.and_eq_true, decide_eq_true_eq] at hline
    exact absurd (by rw [hline.1.1]; rfl) hfeed
  | case12 fresh c behind hnull hbrace hback hinside hline letters behind' hrun ih =>
    cases h
    simp only [List.mem_cons, not_or] at hs
    have hruns : Runs q fresh c behind :=
      ⟨hnull, hback, Bool.eq_false_iff.mpr hinside, Bool.eq_false_iff.mpr hline⟩
    have htriple : c = '\n' → q.triple = true := by
      rintro rfl
      exact hadmits.triple_of_feed
    rw [formatRun_runs_withReturns hq (Bool.eq_false_iff.mpr hbrace) hruns htriple,
      ih hs.2 hrun (hadmits.of_cons hback) hfeed false]
    exact extend_withReturns [c] letters behind'

end ClassCli.Source.Lexer
