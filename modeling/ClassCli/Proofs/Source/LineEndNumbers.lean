import ClassCli.Source.Number
import ClassCli.Proofs.Text.LineEnds

/-!
# Numbers and line ends

A number is split off the front of a text without a look at line ends: it holds none, and with a carriage
return in front of every line feed the same number comes first.

* **`SplitsAll`** — splitting something off the front that holds no line feed.
* **`split_withReturns`** — numbers are split off in this way.
-/

namespace ClassCli.Source

open Text (withReturns withReturns_cases withReturns_cons withReturns_feed)

/-! ## Splitting -/

/-- What is split off a text holds no line feed and is the same if the text has carriage returns. -/
structure Splits (r : List Char → List Char × List Char) (s : List Char) : Prop where
  parts : s = (r s).1 ++ (r s).2
  noFeed : '\n' ∉ (r s).1
  returns : r (withReturns s) = ((r s).1, withReturns (r s).2)

/-- What is split off, if anything is, with its parts. -/
theorem Splits.of_eq {r : List Char → List Char × List Char} {s text rest : List Char} (h : Splits r s)
    (hr : r s = (text, rest)) :
    r (withReturns s) = (text, withReturns rest) ∧ s = text ++ rest ∧ '\n' ∉ text := by
  obtain ⟨hparts, hnoFeed, hreturns⟩ := h
  rw [hr] at hparts hnoFeed hreturns
  exact ⟨hreturns, hparts, hnoFeed⟩

/-- Splitting something off the front of whatever text. -/
def SplitsAll (r : List Char → List Char × List Char) : Prop := ∀ s, Splits r s

/-- The same if there need not be anything to split off. -/
def SplitsSome (r : List Char → Option (List Char × List Char)) (s : List Char) : Prop :=
  (r s = none ∧ r (withReturns s) = none)
    ∨ ∃ text rest, r s = some (text, rest) ∧ r (withReturns s) = some (text, withReturns rest)
      ∧ s = text ++ rest ∧ text ≠ [] ∧ '\n' ∉ text

namespace Number

variable {r next : List Char → List Char × List Char} {c : Char} {s : List Char}

/-- Nothing is split off the end of a text. -/
theorem splits_nil (h : r [] = ([], [])) : Splits r [] := by
  constructor <;> simp [h]

/-- Nothing is split off in front of a line feed or of a carriage return. -/
theorem splits_feed (hfeed : ∀ rest, r ('\n' :: rest) = ([], '\n' :: rest))
    (hreturn : ∀ rest, r ('\r' :: rest) = ([], '\r' :: rest)) : Splits r ('\n' :: s) := by
  constructor
  · rw [hfeed]
    rfl
  · rw [hfeed]
    exact List.not_mem_nil
  · rw [hfeed, withReturns_feed, hreturn]

/-- Nothing is split off in front of a character. -/
theorem splits_stop (hc : c ≠ '\n') (hstop : ∀ s' ∈ [s, withReturns s], r (c :: s') = ([], c :: s')) :
    Splits r (c :: s) := by
  have hs := hstop s (by simp)
  constructor
  · rw [hs]
    rfl
  · rw [hs]
    exact List.not_mem_nil
  · rw [hs, withReturns_cons hc, hstop _ (by simp)]

/-- A character is split off and nothing else. -/
theorem splits_one (hc : c ≠ '\n') (hone : ∀ s' ∈ [s, withReturns s], r (c :: s') = ([c], s')) :
    Splits r (c :: s) := by
  have hs := hone s (by simp)
  constructor
  · rw [hs]
    rfl
  · rw [hs]
    simpa using Ne.symm hc
  · rw [hs, withReturns_cons hc, hone _ (by simp)]

/-- A character is split off with what comes behind it. -/
theorem splits_cons (hc : c ≠ '\n') (h : Splits next s)
    (hcons : ∀ s' ∈ [s, withReturns s], r (c :: s') = (c :: (next s').1, (next s').2)) : Splits r (c :: s) := by
  have hs := hcons s (by simp)
  constructor
  · rw [hs, List.cons_append, ← h.parts]
  · rw [hs]
    simpa [Ne.symm hc] using h.noFeed
  · rw [withReturns_cons hc, hcons _ (by simp), h.returns, hs]

theorem splitsAll_takeOne (set : List Char) (hfeed : '\n' ∉ set) (hreturn : '\r' ∉ set) :
    SplitsAll (takeOne set) := by
  intro s
  rcases withReturns_cases s with rfl | ⟨rest, rfl⟩ | ⟨c, rest, hc, rfl⟩
  · exact splits_nil rfl
  · exact splits_feed (by simp [takeOne, hfeed]) (by simp [takeOne, hreturn])
  · by_cases hmem : c ∈ set
    · exact splits_one hc (by simp [takeOne, hmem])
    · exact splits_stop hc (by simp [takeOne, hmem])

/-- The next character is the same, unless it ends the line. -/
theorem head?_withReturns (s : List Char) :
    (withReturns s).head? = s.head? ∨ s.head? = some '\n' ∧ (withReturns s).head? = some '\r' := by
  rcases withReturns_cases s with rfl | ⟨rest, rfl⟩ | ⟨c, rest, hc, rfl⟩
  · exact Or.inl rfl
  · exact Or.inr ⟨rfl, rfl⟩
  · exact Or.inl (by rw [withReturns_cons hc]; rfl)

theorem any_head?_withReturns {test : Char → Bool} (hfeed : test '\n' = false) (hreturn : test '\r' = false)
    (s : List Char) : (withReturns s).head?.any test = s.head?.any test := by
  rcases head?_withReturns s with h | ⟨h, h'⟩
  · rw [h]
  · rw [h, h', Option.any_some, Option.any_some, hfeed, hreturn]

theorem splitsAll_radixRun {isDigit : Char → Bool} (hfeed : isDigit '\n' = false)
    (hreturn : isDigit '\r' = false) :
    SplitsAll (radixRun isDigit) := by
  intro s
  induction s with
  | nil => exact splits_nil rfl
  | cons c s ih =>
    by_cases hc : c = '\n'
    · subst hc
      exact splits_feed (by simp [radixRun, hfeed]) (by simp [radixRun, hreturn])
    have hunder (s : List Char) : radixRun isDigit ('_' :: s)
        = if isDigit '_' || s.head?.any isDigit then
            ('_' :: (radixRun isDigit s).1, (radixRun isDigit s).2)
          else ([], '_' :: s) := by
      cases s with
      | nil => by_cases h : isDigit '_' = true <;> simp [radixRun, h]
      | cons d s => by_cases h : isDigit '_' = true <;> simp [radixRun, h]
    have hahead := any_head?_withReturns hfeed hreturn s
    by_cases hdigit : isDigit c = true
    · exact splits_cons hc ih (by simp [radixRun, hdigit])
    by_cases hmark : c = '_'
    · subst hmark
      by_cases hnext : s.head?.any isDigit = true
      · exact splits_cons hc ih (by simp [hunder, hahead, hnext])
      · exact splits_stop hc (by simp [hunder, hahead, hnext, hdigit])
    · exact splits_stop hc (by simp [radixRun, hdigit, hmark])

theorem splitsAll_digitRun (afterDigit : Bool) : SplitsAll (digitRun afterDigit) := by
  intro s
  induction s generalizing afterDigit with
  | nil => exact splits_nil rfl
  | cons c s ih =>
    by_cases hc : c = '\n'
    · subst hc
      exact splits_feed (by simp +decide [digitRun]) (by simp +decide [digitRun])
    have hunder (s : List Char) : digitRun true ('_' :: s)
        = if s.head?.any Char.isDigit then ('_' :: (digitRun false s).1, (digitRun false s).2)
          else (['_'], s) := by
      cases s with
      | nil => simp +decide
      | cons d s => simp +decide [digitRun]
    have hahead : (withReturns s).head?.any Char.isDigit = s.head?.any Char.isDigit :=
      any_head?_withReturns (by decide) (by decide) s
    by_cases hdigit : c.isDigit = true
    · exact splits_cons hc (ih true) (by simp [digitRun, hdigit])
    by_cases hmark : c = '_' ∧ afterDigit = true
    · obtain ⟨rfl, rfl⟩ := hmark
      by_cases hnext : s.head?.any Char.isDigit = true
      · exact splits_cons hc (ih false) (by simp [hunder, hahead, hnext])
      · exact splits_one hc (by simp [hunder, hahead, hnext])
    · exact splits_stop hc (by simp [digitRun, hdigit, hmark])

theorem splitsSome_exponent (s : List Char) : SplitsSome exponent s := by
  rcases hmark : takeOne ['e', 'E'] s with ⟨mark, afterMark⟩
  obtain ⟨hmark', rfl, hnoMark⟩ := (splitsAll_takeOne _ (by decide) (by decide) s).of_eq hmark
  rcases hsign : takeOne ['+', '-'] afterMark with ⟨sign, afterSign⟩
  obtain ⟨hsign', rfl, hnoSign⟩ := (splitsAll_takeOne _ (by decide) (by decide) afterMark).of_eq hsign
  rcases hdigits : digitRun false afterSign with ⟨digits, rest⟩
  obtain ⟨hdigits', rfl, hnoDigits⟩ := (splitsAll_digitRun false afterSign).of_eq hdigits
  unfold SplitsSome exponent
  rw [hmark, hmark']
  cases mark with
  | nil => exact Or.inl ⟨rfl, rfl⟩
  | cons c mark =>
    simp only [hsign, hsign', hdigits, hdigits']
    cases digits with
    | nil => exact Or.inl ⟨rfl, rfl⟩
    | cons d digits =>
      refine Or.inr ⟨_, _, rfl, rfl, by simp, by simp, ?_⟩
      simp only [List.mem_append, not_or]
      exact ⟨⟨hnoMark, hnoSign⟩, hnoDigits⟩

/-- The digits of a marked base are split off in the same way. -/
theorem splitsAll_radixDigits {letter : Char} {isDigit : Char → Bool} (h : radixDigits letter = some isDigit) :
    SplitsAll (radixRun isDigit) := by
  unfold radixDigits at h
  split at h
  · cases h
    exact splitsAll_radixRun (by decide) (by decide)
  split at h
  · cases h
    exact splitsAll_radixRun (by decide) (by decide)
  split at h
  · cases h
    exact splitsAll_radixRun (by decide) (by decide)
  · cases h

/-- Text that does not start with a zero and the letter of a base. -/
theorem radix_eq_none {s : List Char} (h : s.head? ≠ some '0') : radix s = none := by
  unfold radix
  split
  · exact absurd rfl h
  · rfl

theorem splitsSome_radix (s : List Char) : SplitsSome radix s := by
  by_cases hzero : s.head? = some '0'
  · obtain ⟨t, rfl⟩ : ∃ t, s = '0' :: t := by
      cases s with
      | nil => cases hzero
      | cons c t => exact ⟨t, by rw [Option.some.inj hzero]⟩
    rcases withReturns_cases t with rfl | ⟨rest, rfl⟩ | ⟨letter, rest, hletter, rfl⟩
    · exact Or.inl ⟨rfl, rfl⟩
    · exact Or.inl ⟨rfl, rfl⟩
    · rw [SplitsSome, withReturns_cons (by decide), withReturns_cons hletter]
      cases hdigits : radixDigits letter with
      | none => exact Or.inl ⟨by simp only [radix, hdigits], by simp only [radix, hdigits]⟩
      | some isDigit =>
        rcases hrun : radixRun isDigit rest with ⟨digits, afterDigits⟩
        obtain ⟨hrun', hrest, hnoDigits⟩ := (splitsAll_radixDigits hdigits rest).of_eq hrun
        rcases hsuffix : takeOne ['l', 'L'] afterDigits with ⟨suffix, after⟩
        obtain ⟨hsuffix', hafter, hnoSuffix⟩ :=
          (splitsAll_takeOne _ (by decide) (by decide) afterDigits).of_eq hsuffix
        simp only [radix, hdigits, hrun, hrun']
        cases digits with
        | nil => exact Or.inl ⟨rfl, rfl⟩
        | cons d digits =>
          simp only [hsuffix, hsuffix']
          refine Or.inr ⟨_, _, rfl, rfl, by simp [hrest, hafter], by simp, ?_⟩
          simp only [List.cons_append, List.mem_cons, List.mem_append, not_or] at hnoDigits ⊢
          exact ⟨by decide, Ne.symm hletter, hnoDigits.1, hnoDigits.2, hnoSuffix⟩
  · refine Or.inl ⟨radix_eq_none hzero, radix_eq_none ?_⟩
    rcases head?_withReturns s with h | ⟨-, h⟩
    · rw [h]
      exact hzero
    · rw [h]
      decide

/-- What is split off in front of an exponent. -/
theorem float_splits (start rest : List Char) :
    ∃ text after, float start rest = (.float, start ++ text, after)
      ∧ float start (withReturns rest) = (.float, start ++ text, withReturns after)
      ∧ rest = text ++ after ∧ '\n' ∉ text := by
  have hfinish (rest : List Char) :
      ∃ suffix after, takeOne ['j', 'J'] rest = (suffix, after)
        ∧ takeOne ['j', 'J'] (withReturns rest) = (suffix, withReturns after)
        ∧ rest = suffix ++ after ∧ '\n' ∉ suffix := by
    rcases hsuffix : takeOne ['j', 'J'] rest with ⟨suffix, after⟩
    obtain ⟨hsuffix', hrest, hnoSuffix⟩ := (splitsAll_takeOne _ (by decide) (by decide) rest).of_eq hsuffix
    exact ⟨suffix, after, rfl, hsuffix', hrest, hnoSuffix⟩
  unfold float
  rcases splitsSome_exponent rest with ⟨hnone, hnone'⟩ | ⟨power, after, hsome, hsome', rfl, -, hnoPower⟩
  · obtain ⟨suffix, after, hsuffix, hsuffix', hrest, hnoSuffix⟩ := hfinish rest
    rw [hnone, hnone']
    simp only [Option.getD_none, hsuffix, hsuffix', List.append_nil]
    exact ⟨suffix, after, rfl, rfl, hrest, hnoSuffix⟩
  · obtain ⟨suffix, after', hsuffix, hsuffix', rfl, hnoSuffix⟩ := hfinish after
    rw [hsome, hsome']
    simp only [Option.getD_some, hsuffix, hsuffix', List.append_assoc]
    refine ⟨power ++ suffix, after', rfl, rfl, by simp, ?_⟩
    rw [List.mem_append, not_or]
    exact ⟨hnoPower, hnoSuffix⟩

/-- A number in base ten without a point. -/
theorem split_without_point {digits rest : List Char} (hradix : radix s = none)
    (hdigits : digitRun false s = (digits, rest)) (hpoint : ¬∃ after, rest = '.' :: after) :
    split s = if digits = [] then none else
      if (exponent rest).isSome then some (float digits rest)
      else some (.integer, digits ++ (takeOne ['l', 'L', 'j', 'J'] rest).1,
        (takeOne ['l', 'L', 'j', 'J'] rest).2) := by
  rw [split, hradix]
  simp only [hdigits]
  split
  · next heq =>
    exact absurd ⟨_, (Prod.mk.inj heq).2⟩ hpoint
  · next heq =>
    rw [if_pos (Prod.mk.inj heq).1]
  · next heq =>
    exact absurd ⟨_, (Prod.mk.inj heq).2⟩ hpoint
  · next hne _ heq =>
    obtain ⟨rfl, rfl⟩ := Prod.mk.inj heq
    rw [if_neg hne]
    split
    · next hexp => rw [hexp, Option.isSome_some, if_pos rfl]
    · next hexp => rw [hexp, Option.isSome_none, if_neg Bool.false_ne_true]

/-- A number in base ten with a point. -/
theorem split_with_point {digits after fraction rest : List Char} (hradix : radix s = none)
    (hdigits : digitRun false s = (digits, '.' :: after)) (hfraction : digitRun false after = (fraction, rest)) :
    split s = if digits = [] ∧ fraction = [] then none else some (float (digits ++ '.' :: fraction) rest) := by
  rw [split, hradix]
  simp only [hdigits]
  cases digits with
  | nil =>
    simp only [hfraction]
    cases fraction with
    | nil => rfl
    | cons d fraction => exact (if_neg fun h => List.cons_ne_nil _ _ h.2).symm
  | cons d digits =>
    simp only [hfraction]
    exact (if_neg fun h => List.cons_ne_nil _ _ h.1).symm

/-- A float is split off in the same way if what stands in front of its exponent is. -/
theorem split_float_returns {start rest : List Char} (h : split s = some (float start rest))
    (h' : split (withReturns s) = some (float start (withReturns rest))) (hs : s = start ++ rest)
    (hne : start ≠ []) (hno : '\n' ∉ start) :
    ∃ kind text after, split s = some (kind, text, after)
      ∧ split (withReturns s) = some (kind, text, withReturns after)
      ∧ s = text ++ after ∧ text ≠ [] ∧ '\n' ∉ text := by
  obtain ⟨text, after, hfloat, hfloat', hrest, hnoText⟩ := float_splits start rest
  refine ⟨.float, start ++ text, after, by rw [h, hfloat], by rw [h', hfloat'], ?_, by simp [hne], ?_⟩
  · rw [hs, hrest, List.append_assoc]
  · rw [List.mem_append, not_or]
    exact ⟨hno, hnoText⟩

theorem split_point_withReturns {digits after : List Char} (hradix : radix s = none)
    (hradix' : radix (withReturns s) = none) (hdigits : digitRun false s = (digits, '.' :: after)) :
    (split s = none ∧ split (withReturns s) = none)
      ∨ ∃ kind text rest, split s = some (kind, text, rest)
        ∧ split (withReturns s) = some (kind, text, withReturns rest)
        ∧ s = text ++ rest ∧ text ≠ [] ∧ '\n' ∉ text := by
  obtain ⟨hdigits', hs, hnoDigits⟩ := (splitsAll_digitRun false s).of_eq hdigits
  rw [withReturns_cons (by decide)] at hdigits'
  rcases hfraction : digitRun false after with ⟨fraction, rest⟩
  obtain ⟨hfraction', hafter, hnoFraction⟩ := (splitsAll_digitRun false after).of_eq hfraction
  have h := split_with_point hradix hdigits hfraction
  have h' := split_with_point hradix' hdigits' hfraction'
  by_cases hempty : digits = [] ∧ fraction = []
  · rw [if_pos hempty] at h h'
    exact Or.inl ⟨h, h'⟩
  · rw [if_neg hempty] at h h'
    refine Or.inr (split_float_returns h h' ?_ (by simp) ?_)
    · rw [hs, hafter, List.append_assoc, List.cons_append]
    · rw [List.mem_append, List.mem_cons, not_or, not_or]
      exact ⟨hnoDigits, by decide, hnoFraction⟩

theorem split_without_point_withReturns {digits rest : List Char} (hradix : radix s = none)
    (hradix' : radix (withReturns s) = none) (hdigits : digitRun false s = (digits, rest))
    (hpoint : ¬∃ after, rest = '.' :: after) :
    (split s = none ∧ split (withReturns s) = none)
      ∨ ∃ kind text rest, split s = some (kind, text, rest)
        ∧ split (withReturns s) = some (kind, text, withReturns rest)
        ∧ s = text ++ rest ∧ text ≠ [] ∧ '\n' ∉ text := by
  obtain ⟨hdigits', hs, hnoDigits⟩ := (splitsAll_digitRun false s).of_eq hdigits
  have hpoint' : ¬∃ after, withReturns rest = '.' :: after := by
    rintro ⟨after, hafter⟩
    rcases withReturns_cases rest with rfl | ⟨rest, rfl⟩ | ⟨c, rest, hc, rfl⟩
    · cases hafter
    · cases hafter
    · rw [withReturns_cons hc] at hafter
      exact hpoint ⟨rest, by rw [(List.cons.inj hafter).1]⟩
  have h := split_without_point hradix hdigits hpoint
  have h' := split_without_point hradix' hdigits' hpoint'
  by_cases hempty : digits = []
  · rw [if_pos hempty] at h h'
    exact Or.inl ⟨h, h'⟩
  rw [if_neg hempty] at h h'
  rcases splitsSome_exponent rest with ⟨hexp, hexp'⟩ | ⟨power, after, hexp, hexp', -, -, -⟩
  · rcases hsuffix : takeOne ['l', 'L', 'j', 'J'] rest with ⟨suffix, after⟩
    obtain ⟨hsuffix', hrest, hnoSuffix⟩ :=
      (splitsAll_takeOne _ (by decide) (by decide) rest).of_eq hsuffix
    rw [hexp, hsuffix] at h
    rw [hexp', hsuffix'] at h'
    refine Or.inr ⟨_, _, _, h, h', by simp [hs, hrest], by simp [hempty], ?_⟩
    rw [List.mem_append, not_or]
    exact ⟨hnoDigits, hnoSuffix⟩
  · rw [hexp, Option.isSome_some, if_pos rfl] at h
    rw [hexp', Option.isSome_some, if_pos rfl] at h'
    exact Or.inr (split_float_returns h h' hs hempty hnoDigits)

/-- **Numbers are split off** in the same way. -/
theorem split_withReturns (s : List Char) :
    (split s = none ∧ split (withReturns s) = none)
      ∨ ∃ kind text rest, split s = some (kind, text, rest)
        ∧ split (withReturns s) = some (kind, text, withReturns rest)
        ∧ s = text ++ rest ∧ text ≠ [] ∧ '\n' ∉ text := by
  rcases splitsSome_radix s with ⟨hnone, hnone'⟩ | ⟨text, rest, hsome, hsome', hparts, hne, hnoFeed⟩
  · rcases hdigits : digitRun false s with ⟨digits, rest⟩
    by_cases hpoint : ∃ after, rest = '.' :: after
    · obtain ⟨after, rfl⟩ := hpoint
      exact split_point_withReturns hnone hnone' hdigits
    · exact split_without_point_withReturns hnone hnone' hdigits hpoint
  · refine Or.inr ⟨.integer, text, rest, ?_, ?_, hparts, hne, hnoFeed⟩
    · rw [split, hsome]
    · rw [split, hsome']

end Number

end ClassCli.Source
