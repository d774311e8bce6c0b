import ClassCli.Code.Value
import ClassCli.Outline.StringLiteral
import ClassCli.Text.Identifier

/-!
# Tokens of a line of code

A line is read into names, strings between single quotes, and single characters, with spaces between
them. Names hold ASCII letters and digits, underscores and every character beyond ASCII; a string stands
for its value, with its escapes resolved.

* **`tokens`** — the tokens of a line.
* **`scan_quote`** — a quoted text is one string whose value is the text.
* **`scan_word`** — an identifier is one name.
-/

namespace ClassCli.Code

open Outline.StringLiteral (unescape)

/-- A token of a line of code. -/
inductive Token where
  | name (text : String)
  | string (value : String)
  | symbol (char : Char)
  deriving DecidableEq, Repr, Inhabited

/-- Whether a character can be part of a name. -/
def isNameChar (c : Char) : Bool := Text.isAsciiNamePart c || 128 ≤ c.toNat

/-! ## Reading -/

/-- What is being read. -/
inductive Reading where
  | between
  | name (read : List Char)
  | string (read : List Char)
  /-- Inside a string, behind a backslash. -/
  | escape (read : List Char)
  deriving DecidableEq, Repr, Inhabited

/-- Opens a token with its first character. -/
def openToken (c : Char) : Reading × List Token :=
  if c = ' ' then (.between, [])
  else if c = '\x27' then (.string [], [])
  else if isNameChar c then (.name [c], [])
  else (.between, [.symbol c])

/-- Reads one character; tells what is being read then and which tokens have come to their end. -/
def advance : Reading → Char → Reading × List Token
  | .between, c => openToken c
  | .name read, c =>
    if isNameChar c then (.name (read ++ [c]), [])
    else ((openToken c).1, .name (String.ofList read) :: (openToken c).2)
  | .string read, c =>
    if c = '\\' then (.escape read, [])
    else if c = '\x27' then (.between, [.string (String.ofList (unescape read))])
    else (.string (read ++ [c]), [])
  | .escape read, c => (.string (read ++ ['\\', c]), [])

/-- The token that the end of a line ends. A string without its closing quote is none. -/
def finish : Reading → List Token
  | .name read => [.name (String.ofList read)]
  | _ => []

/-- The tokens that come to their end in some characters. -/
def scan : Reading → List Char → List Token
  | reading, [] => finish reading
  | reading, c :: rest =>
    match advance reading c with
    | (next, ended) => ended ++ scan next rest

/-- The tokens of a line. -/
def tokens (text : String) : List Token := scan .between text.toList

/-! ## Names and symbols -/

/-- A text that can be one name. -/
def IsWord (word : List Char) : Prop := ∀ c ∈ word, isNameChar c = true

instance (word : List Char) : Decidable (IsWord word) :=
  List.decidableBAll (fun c => isNameChar c = true) word

theorem IsWord.append {front back : List Char} (hf : IsWord front) (hb : IsWord back) :
    IsWord (front ++ back) := by
  intro c hc
  rcases List.mem_append.mp hc with hc | hc
  · exact hf c hc
  · exact hb c hc

/-- **An identifier is a word.** -/
theorem isWord_of_isIdentifier {text : List Char} (h : Text.isIdentifier text = true) :
    text ≠ [] ∧ IsWord text := by
  have hpart : ∀ c, Text.isIdentifierPart c = true → isNameChar c = true := by
    intro c hc
    unfold Text.isIdentifierPart at hc
    unfold isNameChar
    split at hc
    · simp [hc]
    · rename_i hlarge
      simp [Nat.le_of_not_lt hlarge]
  have hstart : ∀ c, Text.isIdentifierStart c = true → isNameChar c = true := by
    intro c hc
    unfold Text.isIdentifierStart at hc
    unfold isNameChar
    split at hc
    · simp only [Text.isAsciiNameStart, Bool.or_eq_true] at hc
      rcases hc with hc | hc
      · simp [Text.isAsciiNamePart, Char.isAlphanum, hc]
      · simp [Text.isAsciiNamePart, hc]
    · rename_i hlarge
      simp [Nat.le_of_not_lt hlarge]
  -- beyond ASCII every character of an identifier is one of a name by definition
  match text, h with
  | c :: rest, h =>
    simp only [Text.isIdentifier, Bool.and_eq_true, List.all_eq_true] at h
    refine ⟨by simp, ?_⟩
    intro other ho
    rcases List.mem_cons.mp ho with rfl | ho
    · exact hstart other h.1
    · exact hpart other (h.2 other ho)

/-- The next character, if there is one, ends a name. -/
def EndsName (rest : List Char) : Prop := ∀ c ∈ rest.head?, isNameChar c = false

theorem endsName_cons {c : Char} (h : isNameChar c = false) (rest : List Char) :
    EndsName (c :: rest) := by
  intro other ho
  obtain rfl : c = other := by simpa using ho
  exact h

theorem scan_cons (reading : Reading) (c : Char) (rest : List Char) :
    scan reading (c :: rest) = (advance reading c).2 ++ scan (advance reading c).1 rest := rfl

theorem scan_space (rest : List Char) : scan .between (' ' :: rest) = scan .between rest := rfl

theorem scan_name_append (word : List Char) :
    ∀ (read rest : List Char), IsWord word →
      scan (.name read) (word ++ rest) = scan (.name (read ++ word)) rest := by
  induction word with
  | nil =>
    intro read rest _
    simp
  | cons c word ih =>
    intro read rest h
    have hc : isNameChar c = true := h c List.mem_cons_self
    have hword : IsWord word := fun other ho => h other (List.mem_cons_of_mem c ho)
    rw [List.cons_append, scan_cons]
    simp only [advance, hc, if_true, List.nil_append]
    rw [ih (read ++ [c]) rest hword, List.append_assoc]
    rfl

theorem scan_name_end {read rest : List Char} (h : EndsName rest) :
    scan (.name read) rest = .name (String.ofList read) :: scan .between rest := by
  cases rest with
  | nil => rfl
  | cons c rest =>
    have hc : isNameChar c = false := h c rfl
    rw [scan_cons]
    simp only [advance, hc, Bool.false_eq_true, if_false]
    rfl

/-- **A word is one name** if something else follows it. -/
theorem scan_word {word rest : List Char} (hw : word ≠ []) (h : IsWord word) (hr : EndsName rest) :
    scan .between (word ++ rest) = .name (String.ofList word) :: scan .between rest := by
  cases word with
  | nil => exact absurd rfl hw
  | cons c word =>
    have hc : isNameChar c = true := h c List.mem_cons_self
    have hword : IsWord word := fun other ho => h other (List.mem_cons_of_mem c ho)
    have hspace : c ≠ ' ' := by
      rintro rfl
      exact absurd hc (by decide)
    have hquote : c ≠ '\x27' := by
      rintro rfl
      exact absurd hc (by decide)
    rw [List.cons_append, scan_cons]
    simp only [advance, openToken, hspace, hquote, hc, if_true, if_false, List.nil_append]
    rw [scan_name_append word [c] rest hword, scan_name_end hr]
    rfl

/-- A name goes on until it ends. -/
theorem exists_scan_name (rest : List Char) :
    ∀ read : List Char, ∃ word others,
      scan (.name read) rest = .name (String.ofList (read ++ word)) :: others := by
  induction rest with
  | nil =>
    intro read
    exact ⟨[], [], by simp [scan, finish]⟩
  | cons c rest ih =>
    intro read
    cases hc : isNameChar c with
    | true =>
      obtain ⟨word, others, h⟩ := ih (read ++ [c])
      refine ⟨c :: word, others, ?_⟩
      rw [scan_cons]
      simp only [advance, hc, if_true, List.nil_append]
      rw [h, List.append_assoc, List.singleton_append]
    | false => exact ⟨[], _, by rw [scan_name_end (endsName_cons hc rest), List.append_nil]⟩

/-- A letter opens a name. -/
theorem exists_scan_letter {c : Char} (hc : isNameChar c = true) (rest : List Char) :
    ∃ word others, scan .between (c :: rest) = .name (String.ofList (c :: word)) :: others := by
  have hspace : c ≠ ' ' := by
    rintro rfl
    exact absurd hc (by decide)
  have hquote : c ≠ '\x27' := by
    rintro rfl
    exact absurd hc (by decide)
  obtain ⟨word, others, h⟩ := exists_scan_name rest [c]
  refine ⟨word, others, ?_⟩
  rw [scan_cons]
  simp only [advance, openToken, hspace, hquote, hc, if_true, if_false, List.nil_append]
  exact h

/-! ## Texts without strings -/

/-- Nothing is being read, or a name is. -/
def Reading.Outside : Reading → Prop
  | .between | .name _ => True
  | .string _ | .escape _ => False

theorem advance_outside {reading : Reading} {c : Char} (h : reading.Outside) (hc : c ≠ '\x27') :
    (advance reading c).1.Outside := by
  have hopen : (openToken c).1.Outside := by
    simp only [openToken, hc, if_false]
    split
    · trivial
    · split
      · trivial
      · trivial
  match reading, h with
  | .between, _ => exact hopen
  | .name read, _ =>
    simp only [advance]
    split
    · trivial
    · exact hopen

/-- **A text without quotes is read on its own** if what follows it does not go on with its last name. -/
theorem scan_append {rest : List Char} (hr : EndsName rest) (text : List Char) (h : '\x27' ∉ text) :
    ∀ reading : Reading, reading.Outside →
      scan reading (text ++ rest) = scan reading text ++ scan .between rest := by
  induction text with
  | nil =>
    intro reading ho
    match reading, ho with
    | .between, _ => rfl
    | .name read, _ => exact scan_name_end hr
  | cons c text ih =>
    intro reading ho
    have hc : c ≠ '\x27' := by
      rintro rfl
      exact h List.mem_cons_self
    have htext : '\x27' ∉ text := fun hmem => h (List.mem_cons_of_mem c hmem)
    rw [List.cons_append, scan_cons, scan_cons, ih htext _ (advance_outside ho hc), List.append_assoc]

/-- What has been read of the token that is being read. -/
def Reading.read : Reading → List Char
  | .between => []
  | .name read | .string read | .escape read => read

/-- A token holds a character in its name. -/
def Token.Names (c : Char) : Token → Prop
  | .name text => c ∈ text.toList
  | _ => False

/-- A character that has not been read stays out of names in a step that reads another one. -/
theorem advance_not_names {reading : Reading} {c d : Char} (ho : reading.Outside)
    (hr : c ∉ reading.read) (hd : d ≠ '\x27') (hc : c ≠ d) :
    (∀ token ∈ (advance reading d).2, ¬ token.Names c) ∧ c ∉ (advance reading d).1.read := by
  have hopen : (∀ token ∈ (openToken d).2, ¬ token.Names c) ∧ c ∉ (openToken d).1.read := by
    simp only [openToken, hd, if_false]
    split
    · simp [Reading.read]
    · split
      · simp [Reading.read, hc]
      · simp [Reading.read, Token.Names]
  match reading, ho, hr with
  | .between, _, _ => exact hopen
  | .name read, _, hr =>
    have hread : c ∉ read := hr
    simp only [advance]
    split
    · simp [Reading.read, hread, hc]
    · refine ⟨?_, hopen.2⟩
      intro token ht
      rcases List.mem_cons.mp ht with rfl | ht
      · simpa [Token.Names] using hread
      · exact hopen.1 token ht

/-- **Names hold nothing but what has been read.** -/
theorem not_names_of_mem_scan {c : Char} (text : List Char) (hq : '\x27' ∉ text) (h : c ∉ text) :
    ∀ reading : Reading, reading.Outside → c ∉ reading.read →
      ∀ token ∈ scan reading text, ¬ token.Names c := by
  induction text with
  | nil =>
    intro reading ho hr token ht
    match reading, ho, hr with
    | .between, _, _ => exact absurd ht (by simp [scan, finish])
    | .name read, _, hr =>
      have hread : c ∉ read := hr
      obtain rfl : token = .name (String.ofList read) := by simpa [scan, finish] using ht
      simpa [Token.Names] using hread
  | cons d text ih =>
    intro reading ho hr token ht
    simp only [List.mem_cons, not_or] at hq h
    have hd : d ≠ '\x27' := Ne.symm hq.1
    obtain ⟨hended, hread⟩ := advance_not_names ho hr hd h.1
    rw [scan_cons] at ht
    rcases List.mem_append.mp ht with ht | ht
    · exact hended token ht
    · exact ih hq.2 h.2 _ (advance_outside ho hd) hread token ht

/-! ## Strings -/

/-- The characters that are written as escapes. -/
def escapes : List Char := ['\\', '\x27', '\n', '\r', '\t']

theorem forall_escapes {P : Char → Prop} :
    (∀ c ∈ escapes, P c) ↔ P '\\' ∧ P '\x27' ∧ P '\n' ∧ P '\r' ∧ P '\t' := by
  simp [escapes]

/-- Every other character stands for itself. -/
theorem escaped_of_not_mem {c : Char} (h : c ∉ escapes) : escaped c = [c] := by
  simp only [escapes, List.mem_cons, List.not_mem_nil, or_false, not_or] at h
  simp [escaped, h]

theorem unescape_escaped_append (c : Char) (rest : List Char) :
    unescape (escaped c ++ rest) = c :: unescape rest := by
  by_cases hc : c ∈ escapes
  · have hall : ∀ a ∈ escapes, unescape (escaped a ++ rest) = a :: unescape rest :=
      forall_escapes.mpr ⟨rfl, rfl, rfl, rfl, rfl⟩
    exact hall c hc
  · have hslash : c ≠ '\\' := by
      rintro rfl
      exact hc (by decide)
    rw [escaped_of_not_mem hc]
    show unescape (c :: rest) = _
    cases rest with
    | nil => simp [unescape, hslash]
    | cons next after => simp [unescape, hslash]

/-- Resolving the escapes of an escaped text gives the text. -/
theorem unescape_escaped (s : List Char) :
    unescape (s.flatMap escaped) = s := by
  induction s with
  | nil => rfl
  | cons c s ih => rw [List.flatMap_cons, unescape_escaped_append, ih]

/-- Reading the escaped form of one character stays inside the string. -/
theorem scan_string_escaped (c : Char) (read rest : List Char) :
    scan (.string read) (escaped c ++ rest) = scan (.string (read ++ escaped c)) rest := by
  by_cases hc : c ∈ escapes
  · have hall : ∀ a ∈ escapes,
        scan (.string read) (escaped a ++ rest) = scan (.string (read ++ escaped a)) rest :=
      forall_escapes.mpr ⟨rfl, rfl, rfl, rfl, rfl⟩
    exact hall c hc
  · have hslash : c ≠ '\\' := by
      rintro rfl
      exact hc (by decide)
    have hquote : c ≠ '\x27' := by
      rintro rfl
      exact hc (by decide)
    rw [escaped_of_not_mem hc, List.singleton_append, scan_cons]
    simp [advance, hslash, hquote]

theorem scan_string_append (s : List Char) :
    ∀ read rest : List Char, scan (.string read) (s.flatMap escaped ++ rest)
      = scan (.string (read ++ s.flatMap escaped)) rest := by
  induction s with
  | nil =>
    intro read rest
    simp
  | cons c s ih =>
    intro read rest
    rw [List.flatMap_cons, List.append_assoc, scan_string_escaped, ih, List.append_assoc]

/-- **A quoted text is one string**, whatever it holds. -/
theorem scan_quote (s : String) (rest : List Char) :
    scan .between ((quote s).toList ++ rest) = .string s :: scan .between rest := by
  have hquote : (quote s).toList ++ rest = '\x27' :: (s.toList.flatMap escaped ++ '\x27' :: rest) := by
    simp [quote]
  rw [hquote]
  show scan (.string []) (s.toList.flatMap escaped ++ '\x27' :: rest) = _
  rw [scan_string_append]
  show .string (String.ofList (unescape (s.toList.flatMap escaped)))
    :: scan .between rest = _
  rw [unescape_escaped, String.ofList_toList]

end ClassCli.Code
