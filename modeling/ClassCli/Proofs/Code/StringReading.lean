import ClassCli.Code.Value
import ClassCli.Decimal.Reading
import ClassCli.Source.Number

/-!
# String literals as Python reads them

A string literal has perhaps a letter in front, quotes, and a text in which a backslash protects the next
character. Its value is a sequence of code points, which need not be those of characters: every line end
counts as a line feed, and the escapes are resolved unless the literal is raw. Byte strings and format
strings denote no text, and no source text holds the null character.

* **`StringReading.denote?`** — what literals next to each other denote.
* **`denote?_quote`** — what a text between single quotes denotes.
-/

namespace ClassCli.Code.StringReading

open Decimal (spelledNat?)
open Source.Number (isHexDigit isOctalDigit)
open Text (asciiLower cut splitOnce startsWith)

/-- The code points that have names. -/
abbrev CharNames := List Char → Option Nat

/-! ## Escapes -/

/-- The escapes of one letter or mark. -/
def plainEscapes : List (Char × Nat) :=
  [('\\', 92), ('\x27', 39), ('\x22', 34), ('a', 7), ('b', 8), ('f', 12), ('n', 10), ('r', 13), ('t', 9),
    ('v', 11)]

/-- The number of hexadecimal digits that an escape letter asks for. -/
def hexLength? (c : Char) : Option Nat :=
  if c = 'x' then some 2 else if c = 'u' then some 4 else if c = 'U' then some 8 else none

/-- A code point given by that many hexadecimal digits. -/
def hexPoint? (length : Nat) (after : List Char) : Option Nat :=
  let digits := after.take length
  if digits.length = length && digits.all isHexDigit then
    (spelledNat? 16 digits).filter (· ≤ 0x10ffff)
  else none

/-- Whether a character can stand in the name of a character. -/
def isCharNamePart (c : Char) : Bool := c.isAlphanum || c == ' ' || c == '-'

/-- A code point given by its name in braces, with the length of the name. -/
def namedPoint? (names : CharNames) : List Char → Option (Nat × Nat)
  | '\x7b' :: after =>
    let name := after.takeWhile isCharNamePart
    if after[name.length]? = some '\x7d' then (names name).map fun point => (point, name.length + 2)
    else none
  | _ => none

/-- Whether there is a line feed next. -/
def feedAhead (after : List Char) : Nat := if after.head? = some '\n' then 1 else 0

/-- What a backslash and the character behind it denote, given what follows, and how many of the
characters that follow belong to it. An escape that is not known stands for itself. -/
def escape? (names : CharNames) (c : Char) (after : List Char) : Option (List Nat × Nat) :=
  if c = '\n' then some ([], 0)
  else if c = '\r' then some ([], feedAhead after)
  else match plainEscapes.lookup c with
    | some point => some ([point], 0)
    | none =>
      if isOctalDigit c then
        let more := (after.take 2).takeWhile isOctalDigit
        (spelledNat? 8 (c :: more)).map fun point => ([point], more.length)
      else match hexLength? c with
        | some length => (hexPoint? length after).map fun point => ([point], length)
        | none =>
          if c = 'N' then (namedPoint? names after).map fun (point, length) => ([point], length)
          else some (['\\'.toNat, c.toNat], 0)

/-! ## Literals -/

/-- What a character denotes inside a literal, given what follows, and how many of the characters that
follow belong to it. -/
def unit? (names : CharNames) (raw : Bool) (c : Char) (rest : List Char) :
    Option (List Nat × Nat) :=
  if c = '\r' then some ([10], feedAhead rest)
  else if c = '\\' && !raw then
    match rest with
    | [] => none
    | next :: after => (escape? names next after).map fun (points, length) => (points, length + 1)
  else some ([c.toNat], 0)

/-- What a text denotes inside a literal, without the characters at its front that have been taken. -/
def inside? (names : CharNames) (raw : Bool) : Nat → List Char → Option (List Nat)
  | _, [] => some []
  | taken + 1, _ :: rest => inside? names raw taken rest
  | 0, c :: rest =>
    match unit? names raw c rest with
    | none => none
    | some (points, taken) => (inside? names raw taken rest).map (points ++ ·)

/-- The text in front of the closing quotes, if they stand at the end and nowhere before. -/
def untilMarks? (marks : List Char) : List Char → Option (List Char)
  | [] => none
  | '\\' :: '\r' :: '\n' :: rest => (untilMarks? marks rest).map ('\\' :: '\r' :: '\n' :: ·)
  | '\\' :: c :: rest =>
    if c = '\x00' then none else (untilMarks? marks rest).map ('\\' :: c :: ·)
  | c :: rest =>
    if startsWith marks (c :: rest) then (if c :: rest = marks then some [] else none)
    else if c = '\x00' || (marks.length = 1 && (c = '\n' || c = '\r')) then none
    else (untilMarks? marks rest).map (c :: ·)

/-- Whether a character is a quote. -/
def isMark (c : Char) : Bool := c == '\x22' || c == '\x27'

/-- The quotes at the front of a text: three of a kind or one. -/
def marksOf : List Char → List Char
  | [] => []
  | mark :: rest =>
    if startsWith (List.replicate 3 mark) (mark :: rest) then List.replicate 3 mark else [mark]

/-- The parts of a literal: whether it is raw, its quotes and what stands between them. -/
def parts? (s : List Char) : Option (Bool × List Char × List Char) :=
  let (letters, quoted) := cut isMark s
  let letters := asciiLower letters
  if letters ∈ [[], ['r'], ['u']] then
    (untilMarks? (marksOf quoted) (quoted.drop (marksOf quoted).length)).map fun text =>
      (letters = ['r'], marksOf quoted, text)
  else none

/-- What a literal denotes. -/
def denoteOne? (names : CharNames) (literal : String) : Option (List Nat) :=
  (parts? literal.toList).bind fun (raw, _, text) => inside? names raw 0 text

/-- What literals next to each other denote. -/
def denote? (names : CharNames) : List String → Option (List Nat)
  | [] => some []
  | literal :: rest =>
    match denoteOne? names literal, denote? names rest with
    | some points, some more => some (points ++ more)
    | _, _ => none

/-! ## Texts between single quotes -/

/-- The code points of a text. -/
def points (s : List Char) : List Nat := s.map Char.toNat

/-- A character stands between single quotes as an escape that denotes it, or as itself. -/
theorem escaped_cases (c : Char) :
    (∃ letter, escaped c = ['\\', letter] ∧ letter ≠ '\r' ∧ letter ≠ '\x00' ∧ c ≠ '\x00'
        ∧ ∀ names after, escape? names letter after = some ([c.toNat], 0))
      ∨ (escaped c = [c] ∧ c ≠ '\\' ∧ c ≠ '\x27' ∧ c ≠ '\n' ∧ c ≠ '\r') := by
  unfold escaped
  split
  · subst c
    exact Or.inl ⟨'\\', rfl, by decide, by decide, by decide, fun _ _ => rfl⟩
  split
  · subst c
    exact Or.inl ⟨'\x27', rfl, by decide, by decide, by decide, fun _ _ => rfl⟩
  split
  · subst c
    exact Or.inl ⟨'n', rfl, by decide, by decide, by decide, fun _ _ => rfl⟩
  split
  · subst c
    exact Or.inl ⟨'r', rfl, by decide, by decide, by decide, fun _ _ => rfl⟩
  split
  · subst c
    exact Or.inl ⟨'t', rfl, by decide, by decide, by decide, fun _ _ => rfl⟩
  · exact Or.inr ⟨rfl, by assumption, by assumption, by assumption, by assumption⟩

theorem untilMarks?_escaped (s : List Char) :
    untilMarks? ['\x27'] (s.flatMap escaped ++ ['\x27'])
      = if '\x00' ∈ s then none else some (s.flatMap escaped) := by
  induction s with
  | nil => rfl
  | cons c s ih =>
    rw [List.flatMap_cons, List.append_assoc]
    rcases escaped_cases c with ⟨letter, hc, hreturn, hzero, hnull, -⟩ | ⟨hc, hslash, hquote, hfeed, hreturn⟩
    · rw [hc]
      simp only [List.cons_append, List.nil_append, List.mem_cons, hnull.symm, false_or]
      rw [untilMarks?, if_neg hzero, ih]
      · split
        · rfl
        · rfl
      · intro rest h
        exact absurd h hreturn
    · rw [hc]
      simp only [List.cons_append, List.nil_append, List.mem_cons]
      rw [untilMarks?, ih]
      · by_cases hnull : c = '\x00'
        · subst hnull
          rfl
        · simp [Text.startsWith, Text.afterStart, Ne.symm hquote, hnull, Ne.symm hnull, hfeed, hreturn]
          split
          · rfl
          · rfl
      · intro rest h
        exact absurd h hslash
      · intro next rest h
        exact absurd h hslash

theorem inside?_escaped (names : CharNames) (s : List Char) :
    inside? names false 0 (s.flatMap escaped) = some (points s) := by
  induction s with
  | nil => rfl
  | cons c s ih =>
    rw [List.flatMap_cons]
    rcases escaped_cases c with ⟨letter, hc, -, -, -, hescape⟩ | ⟨hc, hslash, -, -, hreturn⟩
    · rw [hc]
      simp [inside?, unit?, hescape, ih, points]
    · rw [hc]
      simp [inside?, unit?, hslash, hreturn, ih, points]

theorem marksOf_quoted (s : List Char) :
    marksOf ('\x27' :: (s.flatMap escaped ++ ['\x27'])) = ['\x27'] := by
  cases s with
  | nil => rfl
  | cons c s =>
    rw [List.flatMap_cons]
    rcases escaped_cases c with ⟨letter, hc, -⟩ | ⟨hc, -, hquote, -⟩
    · rw [hc]
      rfl
    · rw [hc]
      simp [marksOf, Text.startsWith, List.replicate, Text.afterStart, Ne.symm hquote]

theorem parts?_quote (s : String) :
    parts? (quote s).toList
      = if '\x00' ∈ s.toList then none else some (false, ['\x27'], s.toList.flatMap escaped) := by
  have hcut : cut isMark ('\x27' :: (s.toList.flatMap escaped ++ ['\x27']))
      = ([], '\x27' :: (s.toList.flatMap escaped ++ ['\x27'])) := rfl
  rw [quote, String.toList_ofList, List.cons_append, parts?, hcut]
  simp only [marksOf_quoted]
  show Option.map _ (untilMarks? ['\x27'] (s.toList.flatMap escaped ++ ['\x27'])) = _
  rw [untilMarks?_escaped]
  split
  · rfl
  · rfl

/-- **What a text between single quotes denotes**: the text, unless it holds the null character. -/
theorem denote?_quote (names : CharNames) (s : String) :
    denote? names [quote s] = if '\x00' ∈ s.toList then none else some (points s.toList) := by
  rw [denote?, denoteOne?, parts?_quote]
  by_cases hnull : '\x00' ∈ s.toList
  · simp [hnull]
  · simp [hnull, inside?_escaped, denote?]

example : denote? (fun _ => none) ["'a\\x41\\101'", "r'\\d'"] = some (points "aAA\\d".toList) := by
  decide +kernel

end ClassCli.Code.StringReading
