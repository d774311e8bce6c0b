import ClassCli.Proofs.Code.LiteralValues
import ClassCli.Proofs.Synthesis.LegalFiles

/-!
# Options that are not given

The declaration of an option is a call, and its arguments say what the value of the option is if it is not given on
the command line. This is the default of the argument: it is written into the call, or it is the value that a switch
is born with. A truth value is always a switch, so that the default `None` gets lost there.

* **`callArguments?`** — what Python passes to a call that declares an option.
* **`callArguments?_argumentLine`** — what is said there about an argument.
* **`absentPair?`** — the value that a parser stores for an option that is not given.
* **`absentPair?_argumentLine`** — it is the declared default.
-/

namespace ClassCli.Synthesis

open Code (NoNull PythonValue evaluate? literal quote)
open Code.StringReading (CharNames points)
open Interface (Argument Kind)
open Source (Expr Written WrittenArgument)

/-! ## Calls as Python evaluates them -/

/-- The arguments of a call with their keywords. -/
abbrev CallArguments := List (Option String × PythonValue)

/-- What an argument of a call is evaluated to. -/
def evaluateArgument? (names : CharNames) : Expr → Option (Option String × PythonValue)
  | .keyword name x => (evaluate? names x).map (some name, ·)
  | x => (evaluate? names x).map (none, ·)

/-- What Python passes to the parser in a line that declares an option. -/
def callArguments? (names : CharNames) (line : String) : Option CallArguments :=
  match Source.expression (.statement 0) (Source.Lexer.tokens line) with
  | .ok (.call (.attribute (.name "parser") "add_argument") xs, rest) =>
    if Source.atStatementEnd rest then xs.mapM (evaluateArgument? names) else none
  | _ => none

/-! ## What a parser stores -/

/-- The value of an option that is not given. A default that is a string is read like a value that is given; `str`
leaves it as it is. Without a default a switch is born with the opposite of what it sets, anything else with `None`. -/
def absentValue? (arguments : CallArguments) : Option PythonValue :=
  match arguments.lookup (some "default") with
  | some (.str value) =>
    match arguments.lookup (some "type") with
    | none | some (.type "str") => some (.str value)
    | _ => none
  | some value => some value
  | none =>
    match arguments.lookup (some "action") with
    | none => some .none
    | some (.str action) =>
      if action = points "store_true".toList then some (.bool false)
      else if action = points "store_false".toList then some (.bool true)
      else none
    | some _ => none

/-- The name under which a value is stored for an option that is not given, and the value. An option that is required
cannot be left out. -/
def absentPair? (arguments : CallArguments) : Option (List ℕ × PythonValue) :=
  match arguments.lookup (some "dest"), arguments.lookup (some "required") with
  | some (.str dest), none => (absentValue? arguments).map (dest, ·)
  | _, _ => none

/-! ## What is said about an argument -/

/-- An argument of a call as it is written, with the value that the text stands for. -/
structure Told where
  key : Option String
  text : String
  value : PythonValue

/-- The text of an argument with its keyword. -/
def Told.written (t : Told) : String := t.key.elim t.text fun key => key ++ "=" ++ t.text

/-- A string as it is quoted. -/
def Told.ofText (key : Option String) (text : String) : Told := ⟨key, quote text, .str (points text.toList)⟩

/-- How the value of an argument is read. -/
def toldReading (arg : Argument) : List Told :=
  if isSwitch arg then [.ofText (some "action") (switchAction arg)]
  else
    (arg.kind.map fun kind => ⟨some "type", kind.name, .type kind.name⟩).toList
      ++ (if arg.isList then [.ofText (some "nargs") "+"] else [])

/-- What happens if an argument is not given. -/
def toldAbsence (arg : Argument) : List Told :=
  if isSwitch arg then []
  else match arg.default with
    | none => [⟨some "required", "True", .bool true⟩]
    | some .none => []
    | some value => [⟨some "default", literal value, value.value⟩]

/-- What the declaration of an argument says about it. -/
def told (arg : Argument) : List Told :=
  [.ofText none ("--" ++ arg.name), .ofText (some "dest") arg.destination] ++ toldReading arg
    ++ [.ofText (some "help") (doublePercents arg.help)] ++ toldAbsence arg

theorem map_written_toldReading (arg : Argument) : (toldReading arg).map Told.written = readingOptions arg := by
  unfold toldReading readingOptions
  split
  · rfl
  · cases arg.kind with
    | none => split <;> rfl
    | some kind => split <;> rfl

theorem map_written_toldAbsence (arg : Argument) : (toldAbsence arg).map Told.written = absenceOptions arg := by
  unfold toldAbsence absenceOptions
  split
  · rfl
  · cases arg.default with
    | none => rfl
    | some value => cases value <;> rfl

theorem map_written_told (arg : Argument) : (told arg).map Told.written = optionList arg := by
  rw [told, List.map_append, List.map_append, List.map_append, map_written_toldReading, map_written_toldAbsence]
  rfl

/-- A name that can stand in front of an equals sign in a call. -/
def IsKeyword (name : String) : Prop := Text.isIdentifier name.toList = true ∧ name ∉ Source.Readers.reservedInCalls

instance (name : String) : Decidable (IsKeyword name) := inferInstanceAs (Decidable (_ ∧ _))

/-- An argument of a call whose text Python reads as its value. -/
structure Told.Sound (names : CharNames) (t : Told) : Prop where
  key : ∀ key ∈ t.key, IsKeyword key
  value : Written t.text.toList (fun x => evaluate? names x = some t.value)

variable {names : CharNames} {arg : Argument}

/-- **An argument of a call is evaluated** with its keyword. -/
theorem Told.Sound.argument {t : Told} (h : t.Sound names) :
    WrittenArgument t.written.toList (fun x => evaluateArgument? names x = some (t.key, t.value)) := by
  obtain ⟨key, text, value⟩ := t
  cases key with
  | none =>
    refine (h.value.imp ?_).argument
    intro x hx
    unfold evaluateArgument?
    split
    · cases hx
    · rw [hx]
      rfl
  | some key =>
    obtain ⟨hname, hreserved⟩ := h.key key rfl
    have htext : (Told.written ⟨some key, text, value⟩).toList = key.toList ++ '=' :: text.toList := by
      simp [Told.written]
    rw [htext]
    refine (h.value.keyword hname hreserved).imp ?_
    rintro x ⟨operand, rfl, hoperand⟩
    rw [evaluateArgument?, hoperand]
    rfl

/-! ### Texts -/

theorem sound_ofText {key : Option String} {text : String} (htext : NoNull text)
    (hkey : ∀ k ∈ key, IsKeyword k) :
    (Told.ofText key text).Sound names where
  key := hkey
  value := by
    refine (Source.written_quote htext).imp ?_
    rintro x ⟨spelling, rfl⟩
    rw [evaluate?, Code.StringReading.denote?_quote, if_neg htext]
    rfl

theorem sound_toldReading (arg : Argument) : ∀ t ∈ toldReading arg, t.Sound names := by
  intro t ht
  unfold toldReading at ht
  split at ht
  · obtain rfl := List.mem_singleton.mp ht
    refine sound_ofText ?_ (by decide +kernel)
    unfold switchAction
    split
    · decide
    · decide
  · rcases List.mem_append.mp ht with ht | ht
    · obtain ⟨kind, -, rfl⟩ := Option.map_eq_some_iff.mp (Option.mem_toList.mp ht)
      have hkey : ∀ key ∈ some "type", IsKeyword key := by decide +kernel
      refine ⟨hkey, ?_⟩
      have hname : Text.isIdentifier kind.name.toList = true ∧ kind.name ∉ Source.valueWords
          ∧ kind.name ∉ Source.openingWords ∧ kind.name ∈ Code.typeNames := by
        cases kind <;> decide +kernel
      refine (Source.written_word _ hname.1 (Source.reads_name hname.2.1 hname.2.2.1)).imp ?_
      rintro x rfl
      rw [evaluate?, if_pos hname.2.2.2]
    · split at ht
      · obtain rfl := List.mem_singleton.mp ht
        exact sound_ofText (by decide) (by decide +kernel)
      · exact absurd ht List.not_mem_nil

theorem sound_toldAbsence (h : ∀ text ∈ defaultStrings arg, NoNull text) : ∀ t ∈ toldAbsence arg, t.Sound names := by
  intro t ht
  unfold toldAbsence at ht
  split at ht
  · exact absurd ht List.not_mem_nil
  rename_i hswitch
  split at ht
  · obtain rfl := List.mem_singleton.mp ht
    refine ⟨by decide +kernel, (Source.written_word "True" (by decide +kernel) Source.reads_true).imp ?_⟩
    rintro x rfl
    rfl
  · exact absurd ht List.not_mem_nil
  · rename_i value _ hdefault
    obtain rfl := List.mem_singleton.mp ht
    have hstrings : ∀ text ∈ value.strings, NoNull text := by
      intro text hmem
      apply h text
      rw [defaultStrings, if_neg hswitch, hdefault]
      exact hmem
    have hkey : ∀ key ∈ some "default", IsKeyword key := by decide +kernel
    exact ⟨hkey, (Code.written_literal value hstrings).imp fun x hx => Code.evaluate?_of_stands value hx⟩

theorem sound_told (h : ∀ text ∈ shownTexts arg, NoNull text) : ∀ t ∈ told arg, t.Sound names := by
  have hname : NoNull arg.name := h _ (by simp [shownTexts])
  have hdestination : NoNull arg.destination := h _ (by simp [shownTexts])
  have hhelp : NoNull (doublePercents arg.help) := by
    rw [← Code.noNull_quote]
    exact noNull_help.mpr (h _ (by simp [shownTexts]))
  have hoption : NoNull ("--" ++ arg.name) := Code.noNull_append.mpr ⟨by decide, hname⟩
  intro t ht
  simp only [told, List.mem_append, List.mem_cons, List.not_mem_nil, or_false] at ht
  rcases ht with (((rfl | rfl) | ht) | rfl) | ht
  · exact sound_ofText hoption (by decide)
  · exact sound_ofText hdestination (by decide +kernel)
  · exact sound_toldReading arg t ht
  · exact sound_ofText hhelp (by decide +kernel)
  · exact sound_toldAbsence (fun text hmem => h text (List.mem_append_right _ hmem)) t ht

/-- The text of a declaration is a call with what is told. -/
theorem toList_argumentLine_told (arg : Argument) :
    (argumentLine arg).toList = "parser".toList ++ '.' :: ("add_argument".toList ++ '(' ::
      (Text.join [',', ' '] ((told arg).map fun t => t.written.toList) ++ [')'])) := by
  have htexts : (told arg).map (fun t => t.written.toList) = (optionList arg).map String.toList := by
    rw [← map_written_told, List.map_map]
    rfl
  have hopening : "parser.add_argument(".toList = "parser".toList ++ '.' :: ("add_argument".toList ++ ['(']) := by
    decide +kernel
  have hseparator : ", ".toList = [',', ' '] := rfl
  have hoptions : (options arg).toList = Text.join [',', ' '] ((optionList arg).map String.toList) := by
    rw [options, Text.joinStrings, String.toList_ofList, hseparator]
  rw [toList_argumentLine, hoptions, htexts, hopening]
  simp only [List.append_assoc, List.cons_append, List.nil_append]
  rfl

theorem mapM_eq_some {α β γ : Type} {f : α → Option β} {g : γ → β} {xs : List α} {items : List γ}
    (h : List.Forall₂ (fun item x => f x = some (g item)) items xs) : xs.mapM f = some (items.map g) := by
  induction h with
  | nil => rfl
  | cons hfirst _ ih =>
    rw [List.mapM_cons, hfirst, ih]
    rfl

/-- **What Python passes to the parser** for an argument. -/
theorem callArguments?_argumentLine (h : ∀ text ∈ shownTexts arg, NoNull text) :
    callArguments? names (argumentLine arg) = some ((told arg).map fun t => (t.key, t.value)) := by
  have hobject : Text.isIdentifier "parser".toList = true := by decide +kernel
  have hfunction : Text.isIdentifier "add_argument".toList = true := by decide +kernel
  have harguments : ∀ t ∈ told arg,
      WrittenArgument t.written.toList (fun x => evaluateArgument? names x = some (t.key, t.value)) :=
    fun t ht => (sound_told h t ht).argument
  obtain ⟨x, rest, hread, hend, xs, rfl, hxs⟩ :=
    (Source.written_methodCall _ _ hobject hfunction (by decide) (by decide) harguments).expression
  rw [← toList_argumentLine_told, String.ofList_toList] at hread
  unfold callArguments?
  rw [hread]
  show (if Source.atStatementEnd rest = true then xs.mapM (evaluateArgument? names) else none) = _
  rw [hend, if_pos rfl]
  exact mapM_eq_some hxs

/-! ## Values of options that are not given -/

/-- Whether a value is of a type. An integer is a number, too. -/
def ofKind : Kind → Literal → Bool
  | .int, .int _ | .float, .float _ | .float, .int _ | .str, .str _ | .bool, .bool _ => true
  | _, _ => false

/-- A default that an argument can declare: nothing, or a value of its type, or a list of such values. -/
def Fits (arg : Argument) (value : Literal) : Prop :=
  match arg.kind, value with
  | none, _ | _, .none => True
  | some kind, .list items => arg.isList = true ∧ ∀ item ∈ items, ofKind kind item = true
  | some kind, value => arg.isList = false ∧ ofKind kind value = true

theorem lookup_destination (arg : Argument) :
    ((told arg).map fun t => (t.key, t.value)).lookup (some "dest") = some (.str (points arg.destination.toList)) := rfl

/-- A switch is born with the opposite of what it sets. -/
theorem absentPair?_told_of_switch (hswitch : isSwitch arg = true) :
    absentPair? ((told arg).map fun t => (t.key, t.value))
      = some (points arg.destination.toList, .bool (decide (arg.default = some (.bool true)))) := by
  have htold : (told arg).map (fun t => (t.key, t.value))
      = [(none, .str (points ("--" ++ arg.name).toList)), (some "dest", .str (points arg.destination.toList)),
        (some "action", .str (points (switchAction arg).toList)),
        (some "help", .str (points (doublePercents arg.help).toList))] := by
    simp [told, toldReading, toldAbsence, hswitch, Told.ofText]
  rw [htold, switchAction]
  by_cases htrue : arg.default = some (.bool true)
  · rw [if_pos htrue, decide_eq_true htrue]
    rfl
  · rw [if_neg htrue, decide_eq_false htrue]
    rfl

/-- What is said about an argument that is no switch. -/
theorem map_told_of_value {value : Literal} (hswitch : isSwitch arg = false) (hdefault : arg.default = some value) :
    ∃ more, (told arg).map (fun t => (t.key, t.value))
        = (none, .str (points ("--" ++ arg.name).toList)) :: (some "dest", .str (points arg.destination.toList)) :: more
      ∧ more.lookup (some "required") = none ∧ more.lookup (some "action") = none
      ∧ more.lookup (some "type") = arg.kind.map (.type ·.name)
      ∧ more.lookup (some "default") = if value = .none then none else some value.value := by
  refine ⟨_, rfl, ?_⟩
  have habsence : toldAbsence arg = if value = .none then [] else [⟨some "default", literal value, value.value⟩] := by
    rw [toldAbsence, hswitch, hdefault]
    cases value <;> rfl
  simp only [toldReading, hswitch, habsence, Told.ofText]
  cases arg.kind <;> cases arg.isList <;> by_cases hnone : value = .none <;> simp [hnone, List.lookup_cons]

/-- A string as a default stands at no type but that of strings. -/
theorem kind_of_fits_str {text : String} (h : Fits arg (.str text)) : arg.kind = none ∨ arg.kind = some .str := by
  cases hkind : arg.kind with
  | none => exact Or.inl rfl
  | some kind =>
    unfold Fits at h
    rw [hkind] at h
    cases kind with
    | str => exact Or.inr rfl
    | _ => exact absurd h.2 Bool.false_ne_true

/-- A truth value declares a truth value or nothing. -/
theorem fits_bool {value : Literal} (h : Fits arg value) (hkind : arg.kind = some .bool) (hsingle : arg.isList = false) :
    value = .none ∨ ∃ b, value = .bool b := by
  unfold Fits at h
  rw [hkind] at h
  cases value with
  | none => exact Or.inl rfl
  | bool b => exact Or.inr ⟨b, rfl⟩
  | list items => exact absurd (hsingle.symm.trans h.1) Bool.false_ne_true
  | _ => exact absurd h.2 Bool.false_ne_true

/-- Anything else has its default. -/
theorem absentPair?_told_of_value {value : Literal} (hswitch : isSwitch arg = false)
    (hdefault : arg.default = some value) (hfits : Fits arg value) :
    absentPair? ((told arg).map fun t => (t.key, t.value)) = some (points arg.destination.toList, value.value) := by
  obtain ⟨more, hmore, hrequired, haction, htype, hwritten⟩ := map_told_of_value hswitch hdefault
  have hbehind (key : String) (hkey : key ≠ "dest") :
      ((told arg).map fun t => (t.key, t.value)).lookup (some key) = more.lookup (some key) := by
    have hne : (key == "dest") = false := beq_eq_false_iff_ne.mpr hkey
    rw [hmore]
    simp [List.lookup_cons, hne]
  have hvalue : absentValue? ((told arg).map fun t => (t.key, t.value)) = some value.value := by
    rw [absentValue?, hbehind "default" (by decide), hbehind "type" (by decide), hbehind "action" (by decide), hwritten,
      haction, htype]
    cases value with
    | none => rfl
    | str text =>
      rcases kind_of_fits_str hfits with hkind | hkind
      · rw [hkind]
        rfl
      · rw [hkind]
        rfl
    | _ => rfl
  rw [absentPair?, lookup_destination, hbehind "required" (by decide), hrequired, hvalue]
  rfl

/-- **An option that is not given has its declared default**: nothing, or a value of its type, or a list of such values.
A truth value is a switch, which has no way to be `None`: it is false instead. -/
theorem absentPair?_argumentLine (names : CharNames) {arg : Argument} {value : Literal}
    (hdefault : arg.default = some value) (hfits : Fits arg value)
    (hsingle : arg.kind = some .bool → arg.isList = false) (hshown : ∀ text ∈ shownTexts arg, NoNull text) :
    (callArguments? names (argumentLine arg)).bind absentPair?
      = some (points arg.destination.toList,
        if arg.kind = some .bool ∧ value = .none then .bool false else value.value) := by
  rw [callArguments?_argumentLine hshown, Option.bind_some]
  cases hswitch : isSwitch arg with
  | true =>
    rw [absentPair?_told_of_switch hswitch, hdefault]
    cases hkind : arg.kind with
    | none =>
      rw [isSwitch, hkind, hdefault] at hswitch
      cases value with
      | bool b => cases b <;> rfl
      | _ => cases hswitch
    | some kind =>
      have hbool : kind = .bool := by
        rw [isSwitch, hkind] at hswitch
        cases kind with
        | bool => rfl
        | _ => cases hswitch
      subst hbool
      rcases fits_bool hfits hkind (hsingle hkind) with rfl | ⟨b, rfl⟩
      · rfl
      · cases b <;> rfl
  | false =>
    have hkind : ¬(arg.kind = some .bool ∧ value = .none) := by
      rintro ⟨hkind, -⟩
      rw [isSwitch, hkind] at hswitch
      cases hswitch
    rw [absentPair?_told_of_value hswitch hdefault hfits, if_neg hkind]

/-- An argument that takes integers and has two of them for its default. -/
def levelsArgument : Argument :=
  { Argument.ofParameter "levels" with
    kind := some .int, multiplicity := some .list, default := some (.list [.int (-1), .int 20]) }

/-- A list of integers, of which one is negative, is the value of its option. -/
theorem absentPair?_argumentLine_levels :
    levelsArgument.default = some (.list [.int (-1), .int 20]) ∧ Fits levelsArgument (.list [.int (-1), .int 20])
      ∧ (levelsArgument.kind = some .bool → levelsArgument.isList = false)
      ∧ (∀ text ∈ shownTexts levelsArgument, NoNull text)
      ∧ (callArguments? (fun _ => none) (argumentLine levelsArgument)).bind absentPair?
          = some (points "levels".toList, .list [.int (-1), .int 20]) := by
  have hfits : Fits levelsArgument (.list [.int (-1), .int 20]) := ⟨rfl, by decide⟩
  have hsingle : levelsArgument.kind = some .bool → levelsArgument.isList = false := by decide
  have hshown : ∀ text ∈ shownTexts levelsArgument, NoNull text := by decide
  exact ⟨rfl, hfits, hsingle, hshown, absentPair?_argumentLine _ rfl hfits hsingle hshown⟩

/-- A truth value with `None` for its default. -/
def verboseArgument : Argument :=
  { Argument.ofParameter "verbose" with kind := some .bool, default := some .none }

/-- Several truth values with one of them for their default. -/
def stagesArgument : Argument :=
  { Argument.ofParameter "stages" with
    kind := some .bool, multiplicity := some .list, default := some (.list [.bool true]) }

/-- An argument with a null character in the text about it. -/
def maskedArgument : Argument :=
  { Argument.ofParameter "mask" with kind := some .str, default := some (.str "none"), help := "\x00" }

/-- **A switch is never `None`**, nor is it a list, whatever the default says; and a declaration with a null character
in it is not read at all. -/
theorem defaults_get_lost :
    verboseArgument.default = some .none ∧ Fits verboseArgument .none
      ∧ (callArguments? (fun _ => none) (argumentLine verboseArgument)).bind absentPair?
          = some (points "verbose".toList, .bool false)
      ∧ Literal.none.value ≠ .bool false
      ∧ stagesArgument.default = some (.list [.bool true]) ∧ Fits stagesArgument (.list [.bool true])
      ∧ (callArguments? (fun _ => none) (argumentLine stagesArgument)).bind absentPair?
          = some (points "stages".toList, .bool false)
      ∧ (Literal.list [.bool true]).value ≠ .bool false
      ∧ maskedArgument.default = some (.str "none") ∧ Fits maskedArgument (.str "none")
      ∧ (callArguments? (fun _ => none) (argumentLine maskedArgument)).bind absentPair? = none := by
  have hverbose : ∀ text ∈ shownTexts verboseArgument, NoNull text := by decide
  have hstages : ∀ text ∈ shownTexts stagesArgument, NoNull text := by decide
  have hmasked : (callArguments? (fun _ => none) (argumentLine maskedArgument)).isNone = true := by decide +kernel
  refine ⟨rfl, trivial, ?_, PythonValue.noConfusion, rfl, ⟨rfl, by decide⟩, ?_, PythonValue.noConfusion,
    rfl, ⟨rfl, rfl⟩, ?_⟩
  · rw [callArguments?_argumentLine hverbose, Option.bind_some, absentPair?_told_of_switch rfl]
    rfl
  · rw [callArguments?_argumentLine hstages, Option.bind_some, absentPair?_told_of_switch rfl]
    rfl
  · rw [Option.isNone_iff_eq_none.mp hmasked, Option.bind_none]

end ClassCli.Synthesis
