import ClassCli.Outline.StringLiteral
import ClassCli.Proofs.Code.StringReading
import ClassCli.Proofs.Code.Token
import ClassCli.Proofs.Text.Splitting

/-!
# String values and what literals denote

Extraction resolves the escapes of one letter that are in everyday use, and keeps the others as they are
written. Its value of a literal never has fewer characters than the literal denotes, and it is what the
literal denotes exactly if the literal has none of the other escapes and no carriage return.

* **`isPortable`** — the texts that extraction resolves in full.
* **`inside?_resolve`** — what extraction makes of a text and what the text denotes.
* **`values?_of_denote?`** — exactly when the value of literals is what they denote.
* **`denote?_quote_values?_iff`** — exactly when the quoted value denotes the same.
* **`value?_quote`** — the value of a quoted text is the text.
-/

namespace ClassCli.Outline.StringLiteral

open Code.StringReading
open Text (afterStart afterStart_append afterStart_eq_none asciiLower beforeEnd beforeEnd_append cut
  eq_append_of_afterStart startsWith)

/-! ## Texts that are resolved in full -/

/-- The escapes that extraction keeps as they are written, although they denote something else. -/
def unresolved : List Char :=
  ['a', 'b', 'f', 'v', 'x', 'u', 'U', 'N', '0', '1', '2', '3', '4', '5', '6', '7']

/-- Whether all escapes of a text are resolved. -/
def resolves : List Char → Bool
  | '\\' :: c :: rest => !(unresolved.contains c) && resolves rest
  | _ :: rest => resolves rest
  | [] => true

/-- Whether extraction resolves what stands between the quotes of a literal in full. -/
def isPortable (raw : Bool) (text : List Char) : Bool := !(text.contains '\r') && (raw || resolves text)

/-- What extraction makes of the text between the quotes. -/
def resolve (raw : Bool) (text : List Char) : List Char := if raw then text else unescape text

/-! ## Escapes -/

theorem inside?_eq_drop (names : CharNames) (raw : Bool) (taken : Nat) (s : List Char) :
    inside? names raw taken s = inside? names raw 0 (s.drop taken) := by
  induction s generalizing taken with
  | nil => cases taken <;> rfl
  | cons c s ih =>
    cases taken with
    | zero => rfl
    | succ taken => exact ih taken

theorem unescape_plain {c : Char} (h : c ≠ '\\') (rest : List Char) :
    unescape (c :: rest) = c :: unescape rest := by
  cases rest <;> simp [unescape, h]

theorem unescape_append {taken : List Char} (h : '\\' ∉ taken) (rest : List Char) :
    unescape (taken ++ rest) = taken ++ unescape rest := by
  induction taken with
  | nil => rfl
  | cons c taken ih =>
    rw [List.mem_cons, not_or] at h
    rw [List.cons_append, unescape_plain (Ne.symm h.1), ih h.2]
    rfl

/-- What extraction makes of a backslash and the character behind it. -/
def unescapeOne (c : Char) : List Char :=
  if c = '\n' then [] else match escaped? c with
    | some char => [char]
    | none => ['\\', c]

theorem unescape_escape (c : Char) (rest : List Char) :
    unescape ('\\' :: c :: rest) = unescapeOne c ++ unescape rest := by
  unfold unescapeOne
  rw [unescape]
  simp only [bne_self_eq_false, Bool.false_eq_true, if_false]
  split
  · rfl
  · cases escaped? c <;> rfl

theorem mem_unresolved_of_isOctalDigit {c : Char} (h : Source.Number.isOctalDigit c = true) :
    c ∈ unresolved := by
  obtain ⟨hlow, hhigh⟩ := Bool.and_eq_true_iff.mp h
  have hlow : 48 ≤ c.toNat := of_decide_eq_true hlow
  have hhigh : c.toNat ≤ 55 := of_decide_eq_true hhigh
  have hcases : c.toNat = 48 ∨ c.toNat = 49 ∨ c.toNat = 50 ∨ c.toNat = 51 ∨ c.toNat = 52 ∨ c.toNat = 53
      ∨ c.toNat = 54 ∨ c.toNat = 55 := by
    omega
  rw [← Char.ofNat_toNat c]
  rcases hcases with h | h | h | h | h | h | h | h <;> rw [h] <;> decide

/-- An escape that extraction resolves, or that is known to nobody. -/
theorem escape?_resolved (names : CharNames) {c : Char} (after : List Char) (hc : c ∉ unresolved)
    (hreturn : c ≠ '\r') : escape? names c after = some (points (unescapeOne c), 0) := by
  by_cases hknown : c ∈ ['\n', '\\', '\x27', '\x22', 'n', 'r', 't']
  · simp only [List.mem_cons, List.not_mem_nil, or_false] at hknown
    rcases hknown with rfl | rfl | rfl | rfl | rfl | rfl | rfl <;> rfl
  · have hoctal : Source.Number.isOctalDigit c = false := by
      rw [Bool.eq_false_iff]
      exact fun h => hc (mem_unresolved_of_isOctalDigit h)
    simp only [unresolved, List.mem_cons, List.not_mem_nil, or_false, not_or] at hc hknown
    have hlookup : plainEscapes.lookup c = none := by
      rw [List.lookup_eq_none_iff]
      simp [plainEscapes, hc, hknown]
    have hunescape : unescapeOne c = ['\\', c] := by
      simp [unescapeOne, escaped?, hc, hknown]
    have hlength : hexLength? c = none := by
      simp [hexLength?, hc]
    rw [escape?, if_neg hknown.1, if_neg hreturn, hlookup, hunescape]
    simp [hoctal, hlength, hc, points]

/-- What follows an escape letter and belongs to it holds no backslash. -/
theorem not_mem_of_all {test : Char → Bool} (htest : test '\\' = false) {s : List Char}
    (h : s.all test = true) : '\\' ∉ s := by
  intro hmem
  have hslash := List.all_eq_true.mp h _ hmem
  rw [htest] at hslash
  cases hslash

theorem not_mem_take_feedAhead (after : List Char) : '\\' ∉ after.take (feedAhead after) := by
  cases after with
  | nil => simp
  | cons c after =>
    unfold feedAhead
    split
    · rename_i hc
      obtain rfl := Option.some.inj hc
      simp
    · simp

theorem not_mem_take_of_octal (after : List Char) :
    '\\' ∉ after.take ((after.take 2).takeWhile Source.Number.isOctalDigit).length := by
  have hprefix : (after.take 2).takeWhile Source.Number.isOctalDigit <+: after :=
    (List.takeWhile_prefix _).trans (List.take_prefix 2 after)
  rw [← List.prefix_iff_eq_take.mp hprefix]
  exact not_mem_of_all (by decide) List.all_takeWhile

theorem not_mem_take_of_hexPoint? {length : Nat} {after : List Char} {point : Nat}
    (h : hexPoint? length after = some point) : '\\' ∉ after.take length := by
  simp only [hexPoint?] at h
  split at h
  · rename_i hdigits
    exact not_mem_of_all (by decide) (Bool.and_eq_true_iff.mp hdigits).2
  · cases h

theorem not_mem_take_of_namedPoint? {names : CharNames} {after : List Char} {point length : Nat}
    (h : namedPoint? names after = some (point, length)) : '\\' ∉ after.take length := by
  unfold namedPoint? at h
  split at h
  · rename_i after
    simp only at h
    split at h
    · rename_i hclose
      obtain ⟨point, -, hpoint⟩ := Option.map_eq_some_iff.mp h
      cases hpoint
      have hname : after.take (after.takeWhile isCharNamePart).length = after.takeWhile isCharNamePart :=
        (List.prefix_iff_eq_take.mp (List.takeWhile_prefix _)).symm
      rw [List.take_succ_cons, List.take_add_one, hname, hclose]
      have hplain := not_mem_of_all (s := after.takeWhile isCharNamePart) (by decide) List.all_takeWhile
      simp [hplain]
    · cases h
  · cases h

/-- An escape that extraction keeps as it is written denotes one code point at most. -/
theorem escape?_unresolved {names : CharNames} {c : Char} {after : List Char} {denoted : List Nat}
    {taken : Nat} (hc : c ∈ unresolved ∨ c = '\r') (h : escape? names c after = some (denoted, taken)) :
    '\\' ∉ after.take taken ∧ denoted.length ≤ 1 := by
  unfold escape? at h
  split at h
  · cases h
    simp
  split at h
  · cases h
    exact ⟨not_mem_take_feedAhead after, Nat.zero_le 1⟩
  rename_i hreturn
  split at h
  · cases h
    simp
  rename_i hlookup
  split at h
  · obtain ⟨point, -, hpoint⟩ := Option.map_eq_some_iff.mp h
    cases hpoint
    exact ⟨not_mem_take_of_octal after, Nat.le_refl 1⟩
  rename_i hoctal
  split at h
  · obtain ⟨point, hpoint, hdenoted⟩ := Option.map_eq_some_iff.mp h
    cases hdenoted
    exact ⟨not_mem_take_of_hexPoint? hpoint, Nat.le_refl 1⟩
  rename_i hlength
  split at h
  · obtain ⟨⟨point, length⟩, hpoint, hdenoted⟩ := Option.map_eq_some_iff.mp h
    cases hdenoted
    exact ⟨not_mem_take_of_namedPoint? hpoint, Nat.le_refl 1⟩
  · rename_i hname
    -- every unresolved escape has been dealt with
    rcases hc with hc | hc
    · simp only [unresolved, List.mem_cons, List.not_mem_nil, or_false] at hc
      rcases hc with rfl | rfl | rfl | rfl | rfl | rfl | rfl | rfl | rfl | rfl | rfl | rfl | rfl | rfl | rfl | rfl
      all_goals simp [plainEscapes, hexLength?, Source.Number.isOctalDigit] at hlookup hlength hoctal hname
    · exact absurd hc hreturn

/-! ## Texts -/

theorem points_append (s t : List Char) : points (s ++ t) = points s ++ points t := List.map_append

theorem length_points (s : List Char) : (points s).length = s.length := List.length_map ..

theorem unescape_take_drop {s : List Char} {taken : Nat} (h : '\\' ∉ s.take taken) :
    unescape s = s.take taken ++ unescape (s.drop taken) := by
  rw [← unescape_append h, List.take_append_drop]

theorem resolves_plain {c : Char} (h : c ≠ '\\') (rest : List Char) :
    resolves (c :: rest) = resolves rest := by
  rw [resolves]
  intro next after hc
  exact absurd hc h

theorem unescapeOne_unresolved {c : Char} (h : c ∈ unresolved ∨ c = '\r') :
    unescapeOne c = ['\x00'] ∨ unescapeOne c = ['\\', c] := by
  rcases h with h | rfl
  · simp only [unresolved, List.mem_cons, List.not_mem_nil, or_false] at h
    rcases h with rfl | rfl | rfl | rfl | rfl | rfl | rfl | rfl | rfl | rfl | rfl | rfl | rfl | rfl | rfl | rfl
    all_goals first | exact Or.inl rfl | exact Or.inr rfl
  · exact Or.inr rfl

theorem null_ne_of_escaped? {c char : Char} (hzero : c ≠ '0') (h : escaped? c = some char) :
    '\x00' ≠ char := by
  unfold escaped? at h
  split at h
  all_goals first
    | exact absurd rfl hzero
    | cases h
  all_goals decide

theorem null_not_mem_unescapeOne {c : Char} (hnull : c ≠ '\x00') (hc : c ∉ unresolved) :
    '\x00' ∉ unescapeOne c := by
  have hzero : c ≠ '0' := by
    rintro rfl
    exact hc (by decide)
  unfold unescapeOne
  split
  · simp
  split
  · rename_i char hchar
    simp [null_ne_of_escaped? hzero hchar]
  · simp [Ne.symm hnull]

/-- Texts that are put together denote what their parts denote, if no part is shorter than what it should
denote. -/
theorem points_append_eq_iff {s t : List Char} {front back : List Nat} (hs : front.length ≤ s.length)
    (ht : back.length ≤ t.length) :
    points (s ++ t) = front ++ back ∧ '\x00' ∉ s ++ t
      ↔ (points s = front ∧ '\x00' ∉ s) ∧ points t = back ∧ '\x00' ∉ t := by
  rw [points_append, List.mem_append, not_or]
  constructor
  · rintro ⟨heq, hnull⟩
    have hlength := congrArg List.length heq
    rw [List.length_append, List.length_append, length_points, length_points] at hlength
    obtain ⟨hfront, hback⟩ := List.append_inj heq (by rw [length_points]; omega)
    exact ⟨⟨hfront, hnull.1⟩, hback, hnull.2⟩
  · rintro ⟨⟨rfl, hnull⟩, rfl, hnull'⟩
    exact ⟨rfl, hnull, hnull'⟩

/-- An escape that extraction does not resolve: either a null character has come in or what is written is
longer than what is denoted. -/
theorem escape?_unescape_unresolved {names : CharNames} {next : Char} {after : List Char} {denoted : List Nat}
    {taken : Nat} (hnext : next ∈ unresolved ∨ next = '\r') (h : escape? names next after = some (denoted, taken)) :
    ∃ written, unescape ('\\' :: next :: after) = written ++ unescape (after.drop taken)
      ∧ denoted.length ≤ written.length
      ∧ (isPortable false ('\\' :: next :: after) = true
        ↔ (points written = denoted ∧ '\x00' ∉ written) ∧ isPortable false (after.drop taken) = true) := by
  obtain ⟨hplain, hone⟩ := escape?_unresolved hnext h
  have hrefused : isPortable false ('\\' :: next :: after) = false := by
    rcases hnext with hnext | rfl
    · simp [isPortable, resolves, hnext]
    · simp [isPortable]
  refine ⟨unescapeOne next ++ after.take taken, ?_, ?_, ?_⟩
  · rw [unescape_escape, unescape_take_drop hplain, List.append_assoc]
  · rw [List.length_append]
    rcases unescapeOne_unresolved hnext with hone' | hone' <;> rw [hone'] <;> simp <;> omega
  · rw [hrefused]
    rcases unescapeOne_unresolved hnext with hone' | hone'
    · simp [hone']
    · rw [hone']
      refine ⟨fun h => absurd h Bool.false_ne_true, ?_⟩
      rintro ⟨⟨rfl, -⟩, -⟩
      rw [length_points] at hone
      simp at hone

/-- An escape that extraction resolves. -/
theorem escape?_unescape_resolved {names : CharNames} {next : Char} {after : List Char} {denoted : List Nat}
    {taken : Nat} (hnull : next ≠ '\x00') (hnext : next ∉ unresolved) (hreturn : next ≠ '\r')
    (h : escape? names next after = some (denoted, taken)) :
    ∃ written, unescape ('\\' :: next :: after) = written ++ unescape (after.drop taken)
      ∧ denoted.length ≤ written.length
      ∧ (isPortable false ('\\' :: next :: after) = true
        ↔ (points written = denoted ∧ '\x00' ∉ written) ∧ isPortable false (after.drop taken) = true) := by
  rw [escape?_resolved names after hnext hreturn] at h
  cases h
  have hnull' := null_not_mem_unescapeOne hnull hnext
  refine ⟨unescapeOne next, ?_, Nat.le_of_eq (length_points _), ?_⟩
  · rw [unescape_escape]
    rfl
  · simp [isPortable, resolves, hnext, Ne.symm hreturn, hnull']

/-- What a character denotes and what extraction makes of it, with all that belongs to it. -/
theorem unit?_unescape {names : CharNames} {c : Char} {rest : List Char} {denoted : List Nat} {taken : Nat}
    (hnull : '\x00' ∉ c :: rest) (h : unit? names false c rest = some (denoted, taken)) :
    ∃ written, unescape (c :: rest) = written ++ unescape (rest.drop taken)
      ∧ denoted.length ≤ written.length
      ∧ (isPortable false (c :: rest) = true
        ↔ (points written = denoted ∧ '\x00' ∉ written) ∧ isPortable false (rest.drop taken) = true) := by
  rw [List.mem_cons, not_or] at hnull
  unfold unit? at h
  split at h
  · -- a carriage return
    rename_i hreturn
    subst hreturn
    cases h
    refine ⟨'\r' :: rest.take (feedAhead rest), ?_, by simp, ?_⟩
    · rw [unescape_plain (by decide), unescape_take_drop (not_mem_take_feedAhead rest)]
      rfl
    · simp [isPortable, points]
  rename_i hreturn
  split at h
  · -- an escape
    rename_i hslash
    obtain rfl : c = '\\' := by simpa using hslash
    split at h
    · cases h
    rename_i next after
    obtain ⟨⟨points', length⟩, hescape, hdenoted⟩ := Option.map_eq_some_iff.mp h
    cases hdenoted
    rw [List.mem_cons, not_or] at hnull
    rw [List.drop_succ_cons]
    by_cases hnext : next ∈ unresolved ∨ next = '\r'
    · exact escape?_unescape_unresolved hnext hescape
    · rw [not_or] at hnext
      exact escape?_unescape_resolved (Ne.symm hnull.2.1) hnext.1 hnext.2 hescape
  · -- any other character
    rename_i hslash
    cases h
    have hslash : c ≠ '\\' := by simpa using hslash
    refine ⟨[c], unescape_plain hslash rest, by simp, ?_⟩
    simp [isPortable, resolves_plain hslash, points, hnull.1, Ne.symm hreturn]

/-- The same for raw texts, in which a backslash is a character like any other. -/
theorem unit?_raw {names : CharNames} {c : Char} {rest : List Char} {denoted : List Nat} {taken : Nat}
    (hnull : '\x00' ∉ c :: rest) (h : unit? names true c rest = some (denoted, taken)) :
    ∃ written, c :: rest = written ++ rest.drop taken
      ∧ denoted.length ≤ written.length
      ∧ (isPortable true (c :: rest) = true
        ↔ (points written = denoted ∧ '\x00' ∉ written) ∧ isPortable true (rest.drop taken) = true) := by
  rw [List.mem_cons, not_or] at hnull
  unfold unit? at h
  split at h
  · rename_i hreturn
    subst hreturn
    cases h
    refine ⟨'\r' :: rest.take (feedAhead rest), ?_, by simp, ?_⟩
    · rw [List.cons_append, List.take_append_drop]
    · simp [isPortable, points]
  · rename_i hreturn
    rw [Bool.not_true, Bool.and_false, if_neg Bool.false_ne_true] at h
    cases h
    refine ⟨[c], rfl, by simp, ?_⟩
    simp [isPortable, points, hnull.1, Ne.symm hreturn]

/-- The same for every text between quotes. -/
theorem unit?_resolve {names : CharNames} {raw : Bool} {c : Char} {rest : List Char} {denoted : List Nat}
    {taken : Nat} (hnull : '\x00' ∉ c :: rest) (h : unit? names raw c rest = some (denoted, taken)) :
    ∃ written, resolve raw (c :: rest) = written ++ resolve raw (rest.drop taken)
      ∧ denoted.length ≤ written.length
      ∧ (isPortable raw (c :: rest) = true
        ↔ (points written = denoted ∧ '\x00' ∉ written) ∧ isPortable raw (rest.drop taken) = true) := by
  cases raw with
  | true => exact unit?_raw hnull h
  | false => exact unit?_unescape hnull h

/-- **The value of a text between quotes**: it is never shorter than what the text denotes, and it is the
same exactly if the text is resolved in full. -/
theorem inside?_resolve {names : CharNames} {raw : Bool} {s : List Char} {denoted : List Nat}
    (hnull : '\x00' ∉ s) (h : inside? names raw 0 s = some denoted) :
    denoted.length ≤ (resolve raw s).length
      ∧ (points (resolve raw s) = denoted ∧ '\x00' ∉ resolve raw s ↔ isPortable raw s = true) := by
  match s with
  | [] =>
    cases h
    cases raw
    · exact ⟨Nat.le_refl 0, by decide⟩
    · exact ⟨Nat.le_refl 0, by decide⟩
  | c :: rest =>
    rw [inside?] at h
    split at h
    · cases h
    rename_i first taken hunit
    obtain ⟨more, hmore, rfl⟩ := Option.map_eq_some_iff.mp h
    rw [inside?_eq_drop] at hmore
    obtain ⟨written, hwritten, hshort, hportable⟩ := unit?_resolve hnull hunit
    have hdrop : '\x00' ∉ rest.drop taken :=
      fun hmem => hnull (List.mem_cons_of_mem c (List.mem_of_mem_drop hmem))
    have hlength : (rest.drop taken).length < (c :: rest).length := by
      rw [List.length_drop, List.length_cons]
      omega
    obtain ⟨hle, hiff⟩ := inside?_resolve hdrop hmore
    rw [hwritten, points_append_eq_iff hshort hle, hportable, hiff, List.length_append, List.length_append]
    exact ⟨by omega, Iff.rfl⟩
termination_by s.length

/-! ## Literals -/

/-- What stands between the quotes is everything in front of the last ones. -/
theorem untilMarks?_eq {marks s text : List Char} (h : untilMarks? marks s = some text) :
    s = text ++ marks ∧ '\x00' ∉ text := by
  fun_induction untilMarks? marks s generalizing text with
  | case1 | case3 | case6 | case7 => cases h
  | case2 rest ih =>
    obtain ⟨inner, hinner, rfl⟩ := Option.map_eq_some_iff.mp h
    obtain ⟨rfl, hnull⟩ := ih hinner
    exact ⟨rfl, by simp [hnull]⟩
  | case4 c rest _ hc ih =>
    obtain ⟨inner, hinner, rfl⟩ := Option.map_eq_some_iff.mp h
    obtain ⟨rfl, hnull⟩ := ih hinner
    exact ⟨rfl, by simp [hnull, Ne.symm hc]⟩
  | case5 c rest _ _ _ hmarks =>
    cases h
    exact ⟨hmarks, List.not_mem_nil⟩
  | case8 c rest _ _ _ hc ih =>
    obtain ⟨inner, hinner, rfl⟩ := Option.map_eq_some_iff.mp h
    obtain ⟨rfl, hnull⟩ := ih hinner
    have hc : c ≠ '\x00' := fun heq => hc (by simp [heq])
    exact ⟨rfl, by simp [hnull, Ne.symm hc]⟩

/-- The quotes in front are those that the literal opens with. -/
theorem eq_marksOf_append_drop (s : List Char) : s = marksOf s ++ s.drop (marksOf s).length := by
  cases s with
  | nil => rfl
  | cons mark rest =>
    rw [marksOf]
    split
    · rename_i hstart
      obtain ⟨after, hafter⟩ := Option.isSome_iff_exists.mp hstart
      rw [eq_append_of_afterStart hafter, List.drop_left]
    · rfl

/-- Extraction finds the same text between the quotes. -/
theorem delimited?_eq {mark : Char} {rest text : List Char} (hmark : isMark mark = true)
    (h : mark :: rest = marksOf (mark :: rest) ++ text ++ marksOf (mark :: rest)) :
    delimited? (mark :: rest) = some text := by
  have hfound (marks : List Char) (heq : mark :: rest = marks ++ text ++ marks) :
      (afterStart marks (mark :: rest)).bind (beforeEnd marks) = some text := by
    rw [heq, List.append_assoc, afterStart_append, Option.bind_some, beforeEnd_append]
  have hother {other : Char} (hne : mark ≠ other) (more : List Char) :
      (afterStart (other :: more) (mark :: rest)).bind (beforeEnd (other :: more)) = none := by
    rw [afterStart_eq_none (by simpa using hne), Option.bind_none]
  have htriple (hnot : ¬startsWith (List.replicate 3 mark) (mark :: rest)) :
      (afterStart (List.replicate 3 mark) (mark :: rest)).bind (beforeEnd (List.replicate 3 mark)) = none := by
    rw [Option.not_isSome_iff_eq_none.mp hnot, Option.bind_none]
  have hmarks : mark = '\x22' ∨ mark = '\x27' := by simpa [isMark] using hmark
  rw [marksOf] at h
  rw [delimited?, delimiters]
  rcases hmarks with rfl | rfl
  · split at h
    · rw [List.findSome?_cons, hfound _ h]
    · rename_i hnot
      rw [List.findSome?_cons, htriple hnot, List.findSome?_cons, List.replicate_succ, hother (by decide),
        List.findSome?_cons, hfound _ h]
  · split at h
    · rw [List.findSome?_cons, List.replicate_succ, hother (by decide), List.findSome?_cons, hfound _ h]
    · rename_i hnot
      rw [List.findSome?_cons, List.replicate_succ, hother (by decide), List.findSome?_cons, htriple hnot,
        List.findSome?_cons, hother (by decide), List.findSome?_cons, hfound _ h]

/-- Extraction reads a literal that denotes something, and takes the same text for raw. -/
theorem valueOf?_of_parts? {s marks text : List Char} {raw : Bool} (h : parts? s = some (raw, marks, text)) :
    valueOf? s = some (resolve raw text) ∧ '\x00' ∉ text := by
  unfold parts? at h
  simp only at h
  split at h
  · rename_i hletters
    obtain ⟨inner, hinner, heq⟩ := Option.map_eq_some_iff.mp h
    cases heq
    obtain ⟨hend, hnull⟩ := untilMarks?_eq hinner
    cases hquoted : (cut isMark s).2 with
    | nil =>
      rw [hquoted] at hinner
      cases hinner
    | cons mark rest =>
      rw [hquoted] at hend
      have hmark : isMark mark = true := by
        have hhead : s.dropWhile (!isMark ·) = mark :: rest := hquoted
        have hfirst := List.head?_dropWhile_not (!isMark ·) s
        rw [hhead] at hfirst
        simpa using hfirst
      have hopen := eq_marksOf_append_drop (mark :: rest)
      rw [hend, ← List.append_assoc] at hopen
      refine ⟨?_, hnull⟩
      have hcut : cut isQuote s = ((cut isMark s).1, mark :: rest) := by
        rw [← hquoted]
        rfl
      simp only [List.mem_cons, List.not_mem_nil, or_false] at hletters
      simp only [valueOf?, hcut, delimited?_eq hmark hopen]
      rcases hletters with hletters | hletters | hletters <;> rw [hletters] <;> rfl
  · cases h

/-- Whether extraction keeps the value of a literal. -/
def keepsValue (literal : String) : Bool :=
  match parts? literal.toList with
  | some (raw, _, text) => isPortable raw text
  | none => false

/-- **The value of a literal**: extraction gives one to each literal that denotes something. It is never
shorter than what the literal denotes, and it is the same exactly if the text between the quotes is
resolved in full. -/
theorem value?_of_denoteOne? {names : CharNames} {literal : String} {denoted : List Nat}
    (h : denoteOne? names literal = some denoted) :
    ∃ value, value? literal = some value ∧ denoted.length ≤ value.toList.length
      ∧ (points value.toList = denoted ∧ '\x00' ∉ value.toList ↔ keepsValue literal = true) := by
  obtain ⟨⟨raw, marks, text⟩, hparts, hinside⟩ := Option.bind_eq_some_iff.mp h
  obtain ⟨hvalue, hnull⟩ := valueOf?_of_parts? hparts
  refine ⟨String.ofList (resolve raw text), by rw [value?, hvalue, Option.map_some], ?_⟩
  rw [String.toList_ofList, keepsValue, hparts]
  exact inside?_resolve hnull hinside

/-- **The value of literals next to each other**: the same, part by part. -/
theorem values?_of_denote? {names : CharNames} {parts : List String} {denoted : List Nat}
    (h : denote? names parts = some denoted) :
    ∃ value, values? parts = some value ∧ denoted.length ≤ value.toList.length
      ∧ (points value.toList = denoted ∧ '\x00' ∉ value.toList ↔ ∀ part ∈ parts, keepsValue part = true) := by
  induction parts generalizing denoted with
  | nil =>
    cases h
    exact ⟨"", rfl, Nat.le_refl 0, by decide⟩
  | cons part parts ih =>
    rw [denote?] at h
    split at h
    · rename_i front back hfront hback
      cases h
      obtain ⟨first, hfirst, hshort, hkeeps⟩ := value?_of_denoteOne? hfront
      obtain ⟨rest, hrest, hshort', hkeeps'⟩ := ih hback
      refine ⟨first ++ rest, by rw [values?, hfirst, hrest], ?_, ?_⟩
      · rw [String.toList_append, List.length_append, List.length_append]
        omega
      · rw [String.toList_append, points_append_eq_iff hshort hshort', hkeeps, hkeeps', List.forall_mem_cons]
    · cases h

/-- **What the value denotes when it is quoted**: the same as the literals exactly if extraction keeps the
value of each. -/
theorem denote?_quote_values?_iff {names : CharNames} {parts : List String} {denoted : List Nat}
    (h : denote? names parts = some denoted) :
    ∃ value, values? parts = some value
      ∧ (denote? names [Code.quote value] = some denoted ↔ ∀ part ∈ parts, keepsValue part = true) := by
  obtain ⟨value, hvalue, -, hkeeps⟩ := values?_of_denote? h
  refine ⟨value, hvalue, ?_⟩
  rw [← hkeeps, denote?_quote]
  by_cases hnull : '\x00' ∈ value.toList
  · simp [hnull]
  · simp [hnull]

/-! ## Quoted texts -/

/-- **The value of a quoted text is the text**, null characters included. -/
theorem value?_quote (s : String) : value? (Code.quote s) = some s := by
  have hcut : Text.cut isQuote ('\x27' :: (s.toList.flatMap Code.escaped ++ ['\x27']))
      = ([], '\x27' :: (s.toList.flatMap Code.escaped ++ ['\x27'])) := rfl
  have hquote : isMark '\x27' = true := rfl
  have hinner : delimited? ('\x27' :: (s.toList.flatMap Code.escaped ++ ['\x27']))
      = some (s.toList.flatMap Code.escaped) := by
    apply delimited?_eq hquote
    rw [marksOf_quoted, List.append_assoc, List.singleton_append]
  have hvalue : valueOf? (Code.quote s).toList = some s.toList := by
    rw [Code.quote, String.toList_ofList, List.cons_append, valueOf?, hcut]
    simp only [hinner, Option.map_some, Code.unescape_escaped]
    rfl
  rw [value?, hvalue, Option.map_some, String.ofList_toList]

end ClassCli.Outline.StringLiteral
