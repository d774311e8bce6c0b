import ClassCli.Proofs.Code.Token
import Mathlib.Data.List.Forall2

/-!
# What a line of code looks up and calls

Calls in generated code take their values out of the dictionary of parsed arguments. Here the lookups
and the calls of a line are read off its tokens, and the written forms of keyword arguments and of
values are read back.

* **`lookups`**, **`calls`** — the keys that are looked up, and whether a name is called.
* **`reads_callArgs`** — keyword arguments look up the destinations of their arguments, in order.
* **`reads_literal`** — a value is read with words of its own only, so that it looks up nothing.
* **`SettingLine`** — what is read of a keyword with a value: it looks up nothing and calls nothing else.
-/

namespace ClassCli.Code

open Interface (Argument)

/-! ## Lookups and calls -/

/-- The key that is looked up in `args` where the tokens start. -/
def lookup? : List Token → Option String
  | .name "args" :: .symbol '[' :: .string key :: .symbol ']' :: _ => some key
  | _ => none

/-- The keys that are looked up in `args`, in order. -/
def lookups : List Token → List String
  | [] => []
  | token :: rest => (lookup? (token :: rest)).toList ++ lookups rest

/-- Whether a name is called; behind a point it is the name of an attribute, not this one. -/
def callsBehind (name : String) : Bool → List Token → Bool
  | _, [] => false
  | dotted, token :: rest =>
    (!dotted && token == .name name && rest.head? == some (.symbol '('))
      || callsBehind name (token == .symbol '.') rest

/-- Whether a name is called. -/
def calls (name : String) (line : List Token) : Bool := callsBehind name false line

theorem lookups_cons (token : Token) (rest : List Token) :
    lookups (token :: rest) = (lookup? (token :: rest)).toList ++ lookups rest := rfl

@[simp] theorem lookups_symbol (c : Char) (rest : List Token) :
    lookups (.symbol c :: rest) = lookups rest := rfl

@[simp] theorem lookups_string (value : String) (rest : List Token) :
    lookups (.string value :: rest) = lookups rest := rfl

/-- A name that no bracket follows is no lookup. -/
theorem lookups_name_symbol (name : String) {c : Char} (h : c ≠ '[') (rest : List Token) :
    lookups (.name name :: .symbol c :: rest) = lookups rest := by
  have hnone : lookup? (.name name :: .symbol c :: rest) = none := by
    unfold lookup?
    split
    · rename_i heq
      simp only [List.cons.injEq, Token.symbol.injEq] at heq
      exact absurd heq.2.1 h
    · rfl
  rw [lookups_cons, hnone, lookups_symbol]
  rfl

/-- Another name than `args` is no lookup. -/
theorem lookups_name {name : String} (h : name ≠ "args") (rest : List Token) :
    lookups (.name name :: rest) = lookups rest := by
  have hnone : lookup? (.name name :: rest) = none := by
    unfold lookup?
    split
    · rename_i heq
      simp only [List.cons.injEq, Token.name.injEq] at heq
      exact absurd heq.1 h
    · rfl
  rw [lookups_cons, hnone]
  rfl

theorem lookups_lookup (key : String) (rest : List Token) :
    lookups (.name "args" :: .symbol '[' :: .string key :: .symbol ']' :: rest)
      = key :: lookups rest := rfl

@[simp] theorem callsBehind_symbol (name : String) (dotted : Bool) (c : Char) (rest : List Token) :
    callsBehind name dotted (.symbol c :: rest) = callsBehind name (c == '.') rest := by
  have hsymbol : (Token.symbol c == .name name) = false := by simp
  have hpoint : (Token.symbol c == .symbol '.') = (c == '.') := by
    rw [Bool.eq_iff_iff]
    simp
  rw [callsBehind, hsymbol, hpoint]
  simp

/-- A name is called if a parenthesis follows it and no point stands before it. -/
theorem callsBehind_name_symbol (name : String) (dotted : Bool) (text : String) (c : Char)
    (rest : List Token) :
    callsBehind name dotted (.name text :: .symbol c :: rest)
      = ((!dotted && text == name && c == '(') || callsBehind name (c == '.') rest) := by
  have hname : (Token.name text == .name name) = (text == name) := by
    rw [Bool.eq_iff_iff]
    simp
  have hopen : (some (Token.symbol c) == some (.symbol '(')) = (c == '(') := by
    rw [Bool.eq_iff_iff]
    simp
  have hpoint : (Token.name text == .symbol '.') = false := by simp
  rw [callsBehind, List.head?_cons, hname, hopen, hpoint, callsBehind_symbol]

/-- Without an opening parenthesis nothing is called. -/
theorem callsBehind_eq_false (name : String) (line : List Token) (h : .symbol '(' ∉ line) :
    ∀ dotted, callsBehind name dotted line = false := by
  induction line with
  | nil =>
    intro dotted
    rfl
  | cons token rest ih =>
    intro dotted
    simp only [List.mem_cons, not_or] at h
    have hhead : (rest.head? == some (.symbol '(')) = false := by
      cases rest with
      | nil => rfl
      | cons next others =>
        simp only [List.mem_cons, not_or] at h
        simpa using Ne.symm h.2.1
    rw [callsBehind, hhead, ih h.2]
    simp

/-- Tokens that call no function of a certain name, unless what stands behind them does. -/
def Uncalled (name : String) (line : List Token) : Prop :=
  ∀ dotted rest, (∀ dotted, callsBehind name dotted rest = false) →
    callsBehind name dotted (line ++ rest) = false

theorem Uncalled.of_not_mem {name : String} {line : List Token} (h : .name name ∉ line) :
    Uncalled name line := by
  intro dotted rest hr
  induction line generalizing dotted with
  | nil => exact hr dotted
  | cons token line ih =>
    simp only [List.mem_cons, not_or] at h
    have hother : (token == .name name) = false := by
      rw [beq_eq_false_iff_ne]
      exact Ne.symm h.1
    rw [List.cons_append, callsBehind, hother, Bool.and_false, Bool.false_and, Bool.false_or]
    exact ih h.2 _

/-- A keyword is not called. -/
theorem Uncalled.keyword {name : String} {line : List Token} (h : Uncalled name line) (key : String) :
    Uncalled name (.name key :: .symbol '=' :: line) := by
  intro dotted rest hr
  rw [List.cons_append, List.cons_append, callsBehind_name_symbol, h _ rest hr]
  simp

/-- Tokens without the name `args`. -/
def Quiet (line : List Token) : Prop := .name "args" ∉ line

/-- Quiet tokens look up nothing. -/
theorem lookups_quiet_append {front : List Token} (h : Quiet front) (rest : List Token) :
    lookups (front ++ rest) = lookups rest := by
  induction front with
  | nil => rfl
  | cons token front ih =>
    simp only [Quiet, List.mem_cons, not_or] at h
    rw [List.cons_append]
    cases token with
    | name text =>
      have hname : text ≠ "args" := by
        rintro rfl
        exact h.1 rfl
      rw [lookups_name hname, ih h.2]
    | string value => rw [lookups_string, ih h.2]
    | symbol c => rw [lookups_symbol, ih h.2]

/-! ## Texts and their tokens -/

/-- A text is read as certain tokens wherever it stands, if nothing goes on with its last name. -/
def Reads (text : List Char) (line : List Token) : Prop :=
  ∀ rest, EndsName rest → scan .between (text ++ rest) = line ++ scan .between rest

theorem endsName_nil : EndsName [] := fun c hc => absurd hc (by simp)

theorem EndsName.append {front rest : List Char} (hf : EndsName front) (hr : EndsName rest) :
    EndsName (front ++ rest) := by
  cases front with
  | nil => exact hr
  | cons c front => exact endsName_cons (hf c rfl) _

theorem endsName_quote (s : String) : EndsName (quote s).toList := by
  rw [quote, String.toList_ofList]
  exact endsName_cons (by decide) _

namespace Reads

theorem tokens_eq {text : String} {line : List Token} (h : Reads text.toList line) :
    tokens text = line := by
  have hend := h [] endsName_nil
  rw [List.append_nil] at hend
  rw [tokens, hend]
  simp [scan, finish]

theorem nil : Reads [] [] := fun _ _ => rfl

/-- Texts one after the other, if the second one does not go on with the last name of the first. -/
theorem append {front back : List Char} {first second : List Token} (hf : Reads front first)
    (hb : Reads back second) (h : EndsName back) : Reads (front ++ back) (first ++ second) := by
  intro rest hr
  rw [List.append_assoc, hf _ (h.append hr), hb rest hr, List.append_assoc]

/-- A text without quotes is read on its own. -/
theorem plain {text : List Char} (h : '\x27' ∉ text) : Reads text (scan .between text) :=
  fun _ hr => scan_append hr text h .between trivial

theorem word {word : List Char} (hne : word ≠ []) (h : IsWord word) :
    Reads word [.name (String.ofList word)] := fun _ hr => scan_word hne h hr

theorem quote (s : String) : Reads (quote s).toList [.string s] := fun rest _ => scan_quote s rest

/-- A symbol in front of anything. -/
theorem symbol {c : Char} (hspace : c ≠ ' ') (hquote : c ≠ '\x27') (hname : isNameChar c = false)
    {text : List Char} {line : List Token} (h : Reads text line) :
    Reads (c :: text) (.symbol c :: line) := by
  intro rest hr
  rw [List.cons_append, scan_cons]
  simp only [advance, openToken, hspace, hquote, hname, if_false, Bool.false_eq_true]
  rw [h rest hr]
  rfl

/-- A space in front of anything. -/
theorem space {text : List Char} {line : List Token} (h : Reads text line) :
    Reads (' ' :: text) line := by
  intro rest hr
  rw [List.cons_append, scan_space]
  exact h rest hr

end Reads

/-- Tokens with commas between them. -/
def commas : List (List Token) → List Token
  | [] => []
  | [line] => line
  | line :: next :: rest => line ++ .symbol ',' :: commas (next :: rest)

/-- **Texts with commas between them** are read one after the other. -/
theorem reads_joinStrings {pieces : List String} {lines : List (List Token)}
    (h : List.Forall₂ (fun piece line => Reads piece.toList line) pieces lines) :
    Reads (Text.joinStrings ", " pieces).toList (commas lines) := by
  have hcomma : ", ".toList = [',', ' '] := rfl
  rw [Text.joinStrings, String.toList_ofList, hcomma]
  induction h with
  | nil => exact Reads.nil
  | cons hfirst hrest ih =>
    rename_i piece line pieces lines
    cases hrest with
    | nil => exact hfirst
    | cons hnext hlast =>
      have htail := Reads.symbol (c := ',') (by decide) (by decide) (by decide) (Reads.space ih)
      have hjoined := Reads.append hfirst htail (endsName_cons (by decide) _)
      simpa only [Text.join, commas, List.map_cons, List.append_assoc, List.cons_append,
        List.nil_append] using hjoined

/-! ## Keyword arguments -/

/-- Tokens that look up the same whatever follows them. -/
def Complete (line : List Token) : Prop :=
  ∀ rest, lookups (line ++ rest) = lookups line ++ lookups rest

theorem Quiet.lookups_eq {line : List Token} (h : Quiet line) : lookups line = [] := by
  have hnil := lookups_quiet_append h []
  rwa [List.append_nil] at hnil

theorem Quiet.complete {line : List Token} (h : Quiet line) : Complete line := by
  intro rest
  rw [lookups_quiet_append h, h.lookups_eq, List.nil_append]

theorem lookups_commas_append {lines : List (List Token)} (h : ∀ line ∈ lines, Complete line) :
    ∀ rest, lookups (commas lines ++ rest) = lines.flatMap lookups ++ lookups rest := by
  induction lines with
  | nil =>
    intro rest
    rfl
  | cons line lines ih =>
    intro rest
    have hline : Complete line := h line List.mem_cons_self
    have hlines := ih fun other ho => h other (List.mem_cons_of_mem line ho)
    cases lines with
    | nil => simpa [commas] using hline rest
    | cons next others =>
      have hnext := hlines rest
      rw [commas, List.append_assoc, hline, List.cons_append, lookups_symbol, hnext,
        List.flatMap_cons (x := line), List.append_assoc]

theorem Uncalled.commas {name : String} {lines : List (List Token)}
    (h : ∀ line ∈ lines, Uncalled name line) : Uncalled name (commas lines) := by
  induction lines with
  | nil => exact fun dotted rest hr => hr dotted
  | cons line lines ih =>
    have hline : Uncalled name line := h line List.mem_cons_self
    have hlines := ih fun other ho => h other (List.mem_cons_of_mem line ho)
    cases lines with
    | nil => exact hline
    | cons next others =>
      intro dotted rest hr
      rw [Code.commas, List.append_assoc, List.cons_append]
      refine hline dotted _ fun dotted => ?_
      rw [callsBehind_symbol]
      exact hlines _ rest hr

/-- The tokens of a keyword argument that takes its value out of the parsed arguments. -/
def argumentTokens (arg : Argument) : List Token :=
  [.name arg.destination, .symbol '=', .name "args", .symbol '[', .string arg.destination, .symbol ']']

theorem lookups_argumentTokens_append (arg : Argument) (rest : List Token) :
    lookups (argumentTokens arg ++ rest) = arg.destination :: lookups rest := by
  show lookups (.name arg.destination :: .symbol '=' :: .name "args" :: .symbol '['
    :: .string arg.destination :: .symbol ']' :: rest) = _
  rw [lookups_name_symbol _ (by decide), lookups_lookup]

theorem lookups_argumentTokens (arg : Argument) : lookups (argumentTokens arg) = [arg.destination] := by
  have halone := lookups_argumentTokens_append arg []
  rwa [List.append_nil] at halone

theorem not_mem_commas {token : Token} (hcomma : token ≠ .symbol ',') {lines : List (List Token)}
    (h : ∀ line ∈ lines, token ∉ line) : token ∉ commas lines := by
  induction lines with
  | nil => simp [commas]
  | cons line lines ih =>
    have hline := h line List.mem_cons_self
    have hlines := ih fun other ho => h other (List.mem_cons_of_mem line ho)
    cases lines with
    | nil => exact hline
    | cons next others => simp [commas, hline, hlines, hcomma]

/-- Keyword arguments call nothing. -/
theorem not_mem_argumentTokens (args : List Argument) :
    .symbol '(' ∉ commas (args.map argumentTokens) := by
  refine not_mem_commas (by decide) ?_
  intro line hl
  obtain ⟨arg, -, rfl⟩ := List.mem_map.mp hl
  simp [argumentTokens]

/-- Quoting a word only puts quotes around it. -/
theorem quote_word {word : String} (h : IsWord word.toList) :
    (quote word).toList = '\x27' :: (word.toList ++ ['\x27']) := by
  have hsame : word.toList.flatMap escaped = word.toList := by
    have hone : ∀ c ∈ word.toList, escaped c = [c] := by
      intro c hc
      have hmarks : ∀ a ∈ escapes, isNameChar a = false := forall_escapes.mpr (by decide)
      refine escaped_of_not_mem fun hmem => ?_
      have hname := h c hc
      rw [hmarks c hmem] at hname
      cases hname
    rw [List.flatMap_congr hone]
    simp
  simp [quote, hsame]

/-- A keyword argument is read as its destination and the lookup of it. -/
theorem reads_argument {arg : Argument} (h : Text.isIdentifier arg.destination.toList = true) :
    Reads (arg.destination ++ "=args['" ++ arg.destination ++ "']").toList (argumentTokens arg) := by
  obtain ⟨hne, hword⟩ := isWord_of_isIdentifier h
  have hequals : "=args['".toList = "=args[".toList ++ ['\x27'] := rfl
  have hclose : "']".toList = ['\x27', ']'] := rfl
  have hopen : Reads "=args[".toList [.symbol '=', .name "args", .symbol '['] :=
    Reads.plain (by decide)
  have hbracket : Reads [']'] [.symbol ']'] := Reads.plain (by decide)
  have hkey := (Reads.quote arg.destination).append hbracket (endsName_cons (by decide) _)
  rw [quote_word hword] at hkey
  have hrest := hopen.append hkey (endsName_cons (by decide) _)
  have hall := (Reads.word hne hword).append hrest (endsName_cons (by decide) _)
  rw [String.ofList_toList] at hall
  simpa only [String.toList_append, hequals, hclose, List.append_assoc, List.cons_append,
    List.nil_append, argumentTokens] using hall

/-- **Keyword arguments** are read one after the other. -/
theorem reads_callArgs {args : List Argument}
    (h : ∀ arg ∈ args, Text.isIdentifier arg.destination.toList = true) :
    Reads (callArgs args).toList (commas (args.map argumentTokens)) := by
  refine reads_joinStrings ?_
  rw [List.forall₂_map_left_iff, List.forall₂_map_right_iff, List.forall₂_same]
  intro arg ha
  exact reads_argument (h arg ha)

/-- A call with keyword arguments. -/
theorem reads_call {name : String} (h : Text.isIdentifier name.toList = true) {args : List Argument}
    (ha : ∀ arg ∈ args, Text.isIdentifier arg.destination.toList = true) :
    Reads (name.toList ++ '(' :: ((callArgs args).toList ++ [')']))
      (.name name :: .symbol '(' :: (commas (args.map argumentTokens) ++ [.symbol ')'])) := by
  obtain ⟨hne, hword⟩ := isWord_of_isIdentifier h
  have hclose : Reads [')'] [.symbol ')'] := Reads.plain (by decide)
  have hargs := (reads_callArgs ha).append hclose (endsName_cons (by decide) _)
  have hopen := Reads.symbol (c := '(') (by decide) (by decide) (by decide) hargs
  have hall := (Reads.word hne hword).append hopen (endsName_cons (by decide) _)
  rwa [String.ofList_toList] at hall

/-- **Keyword arguments look up their destinations**, in order. -/
theorem lookups_callArgs_append (args : List Argument) (rest : List Token) :
    lookups (commas (args.map argumentTokens) ++ rest)
      = args.map (·.destination) ++ lookups rest := by
  have hcomplete : ∀ line ∈ args.map argumentTokens, Complete line := by
    intro line hl next
    obtain ⟨arg, -, rfl⟩ := List.mem_map.mp hl
    rw [lookups_argumentTokens_append, lookups_argumentTokens, List.singleton_append]
  rw [lookups_commas_append hcomplete, List.flatMap_map, List.map_eq_flatMap]
  simp only [lookups_argumentTokens]

/-! ## Values -/

/-- Whether a character is a digit, a sign, a point or a letter of an exponent or of the words for special
numbers. -/
def isNumeralChar (c : Char) : Bool := c.isDigit || "-.einfaN".toList.contains c

/-- A text of such characters. -/
def Numeral (text : List Char) : Prop := ∀ c ∈ text, isNumeralChar c = true

instance (text : List Char) : Decidable (Numeral text) :=
  List.decidableBAll (fun c => isNumeralChar c = true) text

/-- The words that values are written with: those for constants, the one in front of a special number, and
the texts of numbers. -/
def ValueWord (word : String) : Prop :=
  word ∈ ["None", "True", "False", "float"] ∨ Numeral word.toList

instance (word : String) : Decidable (ValueWord word) := inferInstanceAs (Decidable (_ ∨ _))

/-- Tokens whose names are words of values. -/
def ValueLine (line : List Token) : Prop := ∀ word, .name word ∈ line → ValueWord word

namespace ValueLine

theorem quiet {line : List Token} (h : ValueLine line) : Quiet line :=
  fun hmem => absurd (h "args" hmem) (by decide)

theorem not_mem {line : List Token} (h : ValueLine line) {word : String} (hw : ¬ValueWord word) :
    .name word ∉ line := fun hmem => hw (h word hmem)

theorem append {front back : List Token} (hf : ValueLine front) (hb : ValueLine back) :
    ValueLine (front ++ back) := by
  intro word hmem
  rcases List.mem_append.mp hmem with hmem | hmem
  · exact hf word hmem
  · exact hb word hmem

theorem commas {lines : List (List Token)} (h : ∀ line ∈ lines, ValueLine line) :
    ValueLine (commas lines) := by
  intro word hmem
  by_contra hword
  exact not_mem_commas (by simp) (fun line hl => (h line hl).not_mem hword) hmem

end ValueLine

namespace Numeral

theorem append {front back : List Char} (hf : Numeral front) (hb : Numeral back) :
    Numeral (front ++ back) := by
  intro c hc
  rcases List.mem_append.mp hc with hc | hc
  · exact hf c hc
  · exact hb c hc

theorem cons {c : Char} {text : List Char} (hc : isNumeralChar c = true) (h : Numeral text) :
    Numeral (c :: text) := by
  intro other ho
  rcases List.mem_cons.mp ho with rfl | ho
  · exact hc
  · exact h other ho

/-- Other characters are not in the text of a number. -/
theorem not_mem {text : List Char} (h : Numeral text) {c : Char} (hc : isNumeralChar c = false) :
    c ∉ text := by
  intro hmem
  rw [h c hmem] at hc
  cases hc

theorem of_subset {text part : List Char} (h : Numeral text) (hp : ∀ c ∈ part, c ∈ text) :
    Numeral part := fun c hc => h c (hp c hc)

theorem replicate (n : Nat) : Numeral (List.replicate n '0') := by
  intro c hc
  rw [List.eq_of_mem_replicate hc]
  decide

theorem digitsOf (n : Nat) : Numeral (Decimal.Shortest.digitsOf n) := by
  intro c hc
  have hdigit : c.isDigit = true := Nat.isDigit_of_mem_toDigits (by decide) (by decide) hc
  rw [isNumeralChar, hdigit, Bool.true_or]

theorem positional {digits : List Char} (h : Numeral digits) (exponent : Int) :
    Numeral (Decimal.Layout.positional digits exponent) := by
  unfold Decimal.Layout.positional
  split
  · exact (h.append (replicate _)).append (by decide)
  · dsimp only
    split
    · exact (h.of_subset fun c hc => List.mem_of_mem_take hc).append
        (cons (by decide) (h.of_subset fun c hc => List.mem_of_mem_drop hc))
    · exact cons (by decide) (cons (by decide) ((replicate _).append h))

theorem scientific {digits : List Char} (h : Numeral digits) (lead : Int) :
    Numeral (Literal.numberLayout.scientific digits lead) := by
  have hmark : Numeral (if lead < 0 then ['-'] else Literal.numberLayout.exponentPlus.toList) := by
    split
    · decide
    · decide
  have hexponent := cons (c := 'e') (by decide) hmark
  have hdigits := digitsOf lead.natAbs
  match digits, h with
  | [], _ => exact hexponent.append hdigits
  | [d], h => exact (h.append hexponent).append hdigits
  | d :: e :: ds, h =>
    have hrest : Numeral (e :: ds) := h.of_subset fun c hc => List.mem_cons_of_mem d hc
    have hmantissa := cons (h d List.mem_cons_self) (cons (c := '.') (by decide) hrest)
    exact (hmantissa.append hexponent).append hdigits

theorem integerText (i : Int) : Numeral (Literal.integerText i).toList := by
  rw [Literal.integerText, String.toList_ofList]
  refine append ?_ (digitsOf _)
  split
  · decide
  · decide

theorem floatText (x : Decimal.Binary64) : Numeral (Literal.floatText x).toList := by
  unfold Literal.floatText Decimal.Layout.text
  split
  · decide
  · rw [String.toList_ofList]
    refine append ?_ ?_
    · split
      · decide
      · decide
    · split
      · decide
      · split
        · decide
        · dsimp only
          split
          · exact positional (digitsOf _) _
          · exact scientific (digitsOf _) _

/-- The names in the text of a number are made of its characters. -/
theorem reads {text : List Char} (h : Numeral text) : ∃ line, Reads text line ∧ ValueLine line := by
  have hquote : '\x27' ∉ text := h.not_mem (by decide)
  refine ⟨_, Reads.plain hquote, ?_⟩
  intro word hmem
  refine Or.inr fun c hc => ?_
  by_contra hother
  have hletter : c ∉ text := h.not_mem (by simpa using hother)
  exact not_names_of_mem_scan text hquote hletter .between trivial (by simp [Reading.read]) _ hmem hc

end Numeral

theorem reads_number (x : Decimal.Binary64) :
    ∃ line, Reads (number x).toList line ∧ ValueLine line := by
  have hcall : ∀ word, Reads ("float(".toList ++ ((quote word).toList ++ [')']))
      [.name "float", .symbol '(', .string word, .symbol ')'] := by
    intro word
    have hopen : Reads "float(".toList [.name "float", .symbol '('] := Reads.plain (by decide)
    have hclose : Reads [')'] [.symbol ')'] := Reads.plain (by decide)
    exact hopen.append ((Reads.quote word).append hclose (endsName_cons (by decide) _))
      ((endsName_quote word).append (endsName_cons (by decide) _))
  unfold number
  split
  · exact ⟨_, hcall "nan", by simp [ValueLine, ValueWord]⟩
  · split
    · split
      · exact ⟨_, Reads.symbol (c := '-') (by decide) (by decide) (by decide) (hcall "inf"),
        by simp [ValueLine, ValueWord]⟩
      · exact ⟨_, hcall "inf", by simp [ValueLine, ValueWord]⟩
    · exact (Numeral.floatText x).reads

mutual

/-- **A value is read with words of values only.** -/
theorem reads_literal :
    ∀ value : Literal, ∃ line, Reads (literal value).toList line ∧ ValueLine line
  | .none => ⟨[.name "None"], Reads.plain (by decide), by simp [ValueLine, ValueWord]⟩
  | .bool true => ⟨[.name "True"], Reads.plain (by decide), by simp [ValueLine, ValueWord]⟩
  | .bool false => ⟨[.name "False"], Reads.plain (by decide), by simp [ValueLine, ValueWord]⟩
  | .int i => (Numeral.integerText i.toInt).reads
  | .float x => reads_number x
  | .str s => ⟨[.string s], Reads.quote s, by simp [ValueLine, ValueWord]⟩
  | .list items => by
    obtain ⟨lines, hlines, hvalues⟩ := reads_literals items
    have hclose : Reads [']'] [.symbol ']'] := Reads.plain (by decide)
    have hinner := (reads_joinStrings hlines).append hclose (endsName_cons (by decide) _)
    have hall := Reads.symbol (c := '[') (by decide) (by decide) (by decide) hinner
    have htext : (literal (.list items)).toList
        = '[' :: ((Text.joinStrings ", " (literals items)).toList ++ [']']) := by
      rw [literal, String.toList_append, String.toList_append]
      rfl
    refine ⟨_, htext ▸ hall, ?_⟩
    have hopen : ValueLine [.symbol '['] := by simp [ValueLine]
    have hend : ValueLine [.symbol ']'] := by simp [ValueLine]
    exact hopen.append ((ValueLine.commas hvalues).append hend)

/-- Values one after the other are read with words of values only. -/
theorem reads_literals :
    ∀ values : List Literal, ∃ lines : List (List Token),
      List.Forall₂ (fun piece line => Reads piece.toList line) (literals values) lines
        ∧ ∀ line ∈ lines, ValueLine line
  | [] => ⟨[], .nil, by simp⟩
  | value :: rest => by
    obtain ⟨line, hline, hvalue⟩ := reads_literal value
    obtain ⟨lines, hlines, hall⟩ := reads_literals rest
    refine ⟨line :: lines, .cons hline hlines, ?_⟩
    intro other ho
    rcases List.mem_cons.mp ho with rfl | ho
    · exact hvalue
    · exact hall other ho

end

/-! ## Settings -/

/-- The tokens of a keyword with a value. -/
structure SettingLine (line : List Token) : Prop where
  complete : Complete line
  lookups : lookups line = []
  /-- Nothing is called that is no word of a value, not even the keyword. -/
  uncalled : ∀ name, ¬ValueWord name → Uncalled name line

/-- A keyword with a value looks up nothing. -/
theorem reads_setting {key : String} (h : Text.isIdentifier key.toList = true) (value : Literal) :
    ∃ line, Reads (key ++ "=" ++ literal value).toList line ∧ SettingLine line := by
  obtain ⟨hne, hword⟩ := isWord_of_isIdentifier h
  obtain ⟨line, hline, hvalue⟩ := reads_literal value
  have hquiet := hvalue.quiet
  have hequals := Reads.symbol (c := '=') (by decide) (by decide) (by decide) hline
  have hall := (Reads.word hne hword).append hequals (endsName_cons (by decide) _)
  have htext : (key ++ "=" ++ literal value).toList = key.toList ++ '=' :: (literal value).toList := by
    simp [String.toList_append]
  refine ⟨_, htext ▸ hall, ?_, ?_, ?_⟩
  · intro rest
    show lookups (.name _ :: .symbol '=' :: (line ++ rest)) = lookups (.name _ :: .symbol '=' :: line) ++ _
    rw [lookups_name_symbol _ (by decide), lookups_name_symbol _ (by decide), hquiet.complete]
  · show lookups (.name _ :: .symbol '=' :: line) = []
    rw [lookups_name_symbol _ (by decide), hquiet.lookups_eq]
  · intro name hname
    exact (Uncalled.of_not_mem (hvalue.not_mem hname)).keyword _

/-- **Keywords with values look up nothing**, one by one. -/
theorem reads_settings {values : Entries Literal}
    (h : ∀ entry ∈ values, Text.isIdentifier entry.1.toList = true) :
    ∃ lines : List (List Token),
      List.Forall₂ (fun piece line => Reads piece.toList line)
          (values.map fun (key, value) => key ++ "=" ++ literal value) lines
        ∧ ∀ line ∈ lines, SettingLine line := by
  induction values with
  | nil => exact ⟨[], .nil, by simp⟩
  | cons entry rest ih =>
    obtain ⟨key, value⟩ := entry
    obtain ⟨line, hline, hsetting⟩ := reads_setting (h (key, value) List.mem_cons_self) value
    obtain ⟨lines, hlines, hall⟩ := ih fun other ho => h other (List.mem_cons_of_mem _ ho)
    refine ⟨line :: lines, .cons hline hlines, ?_⟩
    intro other ho
    rcases List.mem_cons.mp ho with rfl | ho
    · exact hsetting
    · exact hall other ho

end ClassCli.Code
