import ClassCli.Docstring.Convention
import ClassCli.Proofs.Docstring.TypedEntries

/-!
# Results with types

What is said about a result may have a type and a colon in front of it: a dotted name, perhaps with arguments in
square brackets. Here too brackets are not counted: the arguments end at the nearest closing bracket, and if no colon
follows there the type stays. So a type is taken away exactly if its arguments hold no closing bracket and its name
is made of the characters that are expected.

* **`TypeText`** — types in front of a description.
* **`afterType_eq_iff`** — types that are taken away.
* **`returns?_eq_iff`** — what is read about the result.
* **`types_stripped_iff`** — types in both sections of a docstring.
-/

namespace ClassCli.Docstring.Indented

open Text

/-! ## Types in front of a description -/

/-- A dotted name, perhaps with arguments in square brackets. -/
structure TypeText where
  names : List (List Char)
  arguments? : Option (List Char)
  deriving DecidableEq, Repr, Inhabited

/-- Whether a character may follow in the name of a type that is taken away. -/
def isTypePart (c : Char) : Bool := isWord c || c == '.'

namespace TypeText

/-- The names with points between them. -/
def dotted (type : TypeText) : List Char := join ['.'] type.names

/-- The text of a type. -/
def text (type : TypeText) : List Char :=
  type.dotted ++ match type.arguments? with
    | none => []
    | some arguments => '[' :: (arguments ++ [']'])

/-- A type with one name at least, all of them identifiers. -/
structure Proper (type : TypeText) : Prop where
  named : type.names ≠ []
  identifiers : ∀ name ∈ type.names, isIdentifier name = true

/-- A type that opens with an ASCII letter or an underscore, goes on with word characters and points and has no
closing square bracket in its arguments. -/
structure Plain (type : TypeText) : Prop where
  opening : ∀ c ∈ type.dotted.head?, isAsciiNameStart c = true
  parts : ∀ c ∈ type.dotted.tail, isTypePart c = true
  arguments : ∀ arguments ∈ type.arguments?, ']' ∉ arguments

instance (type : TypeText) : Decidable type.Proper :=
  decidable_of_iff (type.names ≠ [] ∧ ∀ name ∈ type.names, isIdentifier name = true)
    ⟨fun ⟨h₁, h₂⟩ => ⟨h₁, h₂⟩, fun h => ⟨h.named, h.identifiers⟩⟩

-- by the characters of the name, not by all characters
instance (type : TypeText) : Decidable type.Plain :=
  decidable_of_iff (type.dotted.head?.all isAsciiNameStart = true ∧ type.dotted.tail.all isTypePart = true ∧
      ∀ arguments ∈ type.arguments?, ']' ∉ arguments) <| by
    rw [Option.all_eq_true, List.all_eq_true]
    exact ⟨fun ⟨h₁, h₂, h₃⟩ => ⟨h₁, h₂, h₃⟩, fun h => ⟨h.opening, h.parts, h.arguments⟩⟩

section Proper

variable {type : TypeText} (h : type.Proper)
include h

theorem Proper.exists_dotted : ∃ c others, type.dotted = c :: others := by
  obtain ⟨name, rest, hnames⟩ := List.exists_cons_of_ne_nil h.named
  have hname := h.identifiers name (by rw [hnames]; exact List.mem_cons_self)
  refine List.exists_cons_of_ne_nil fun hnil => (Code.isWord_of_isIdentifier hname).1 ?_
  rw [dotted, hnames] at hnil
  cases rest with
  | nil => exact hnil
  | cons next others =>
    rw [join_cons_cons, List.append_assoc, List.append_eq_nil_iff] at hnil
    exact hnil.1

/-- A dotted name holds neither white space nor a colon nor a bracket. -/
theorem Proper.of_mem_dotted {c : Char} (hc : c ∈ type.dotted) : isBlank c = false ∧ c ≠ ':' ∧ c ≠ '[' := by
  by_cases hpoint : c = '.'
  · subst hpoint
    decide
  · obtain ⟨name, hname, hmem⟩ := (mem_join_iff (by simpa using hpoint)).mp hc
    have hident := h.identifiers name hname
    have hword : Code.isNameChar c = true := (Code.isWord_of_isIdentifier hident).2 c hmem
    refine ⟨isBlank_of_mem_identifier hident c hmem, ?_, ?_⟩
    · rintro rfl
      exact absurd hword (by decide)
    · rintro rfl
      exact absurd hword (by decide)

theorem Proper.unindented_text (rest : List Char) : Unindented (type.text ++ rest) := by
  obtain ⟨c, others, hdotted⟩ := h.exists_dotted
  rw [text, hdotted]
  rintro _ ⟨rfl⟩
  exact (h.of_mem_dotted (hdotted ▸ List.mem_cons_self)).1

end Proper

end TypeText

/-! ## What stands behind a type -/

/-- What stands behind arguments in square brackets, up to the nearest closing one. -/
def behindArguments (rest : List Char) : List Char :=
  match rest with
  | '[' :: inner =>
    match inner.dropWhile (· != ']') with
    | _ :: after => after
    | [] => rest
  | _ => rest

theorem behindArguments_bracket {arguments : List Char} (h : ']' ∉ arguments) (after : List Char) :
    behindArguments ('[' :: (arguments ++ ']' :: after)) = after := by
  have hall : ∀ c ∈ arguments, (c != ']') = true := fun c hc => bne_iff_ne.mpr fun heq => h (heq ▸ hc)
  have hdrop : (arguments ++ ']' :: after).dropWhile (· != ']') = ']' :: after := by
    rw [List.dropWhile_append_of_pos hall, List.dropWhile_cons_of_neg (by decide)]
  rw [behindArguments, hdrop]

theorem behindArguments_of_ne {c : Char} (h : c ≠ '[') (rest : List Char) :
    behindArguments (c :: rest) = c :: rest := by
  rw [behindArguments]
  exact fun inner heq => h (List.cons.inj heq).1

theorem afterType_of_not_start {c : Char} (hc : isAsciiNameStart c = false) (rest : List Char) :
    afterType (c :: rest) = none := by
  rw [afterType, hc]
  rfl

/-- What stands behind a colon that opens a text, perhaps with white space around it. -/
def behindColon (rest : List Char) : Option (List Char) :=
  match trimStart rest with
  | ':' :: after => some (trimStart after)
  | _ => none

theorem behindColon_eq_some_iff {rest description : List Char} (h : Edged description) :
    behindColon rest = some description ↔
      ∃ front back, blank front = true ∧ blank back = true ∧ rest = front ++ ':' :: (back ++ description) := by
  constructor
  · intro hsome
    rw [behindColon] at hsome
    split at hsome
    · rename_i after hcolon
      refine ⟨rest.takeWhile isBlank, after.takeWhile isBlank, List.all_takeWhile, List.all_takeWhile, ?_⟩
      rw [← Option.some.inj hsome, trimStart, List.takeWhile_append_dropWhile, ← hcolon, trimStart,
        List.takeWhile_append_dropWhile]
    · cases hsome
  · rintro ⟨front, back, hfront, hback, rfl⟩
    have hstart : trimStart (front ++ ':' :: (back ++ description)) = ':' :: (back ++ description) := by
      rw [trimStart, List.dropWhile_append_of_pos (List.all_eq_true.mp hfront),
        List.dropWhile_cons_of_neg (by decide)]
    rw [behindColon, hstart]
    exact congrArg some (h.trimStart back (List.all_eq_true.mp hback))

/-- Behind the name of a type and its arguments there is a colon in front of the description. -/
theorem afterType_append {c : Char} (hc : isAsciiNameStart c = true) {name rest : List Char}
    (hname : ∀ c ∈ name, isTypePart c = true) (hstop : ∀ c ∈ rest.head?, isTypePart c = false) :
    afterType (c :: (name ++ rest)) = behindColon (behindArguments rest) := by
  have hdrop : (name ++ rest).dropWhile isTypePart = rest := by
    rw [List.dropWhile_append_of_pos hname]
    cases rest with
    | nil => rfl
    | cons stop others => exact List.dropWhile_cons_of_neg (ne_true_of_eq_false (hstop stop rfl))
  have hrest : (name ++ rest).dropWhile (fun c => isWord c || c == '.') = rest := hdrop
  simp only [afterType, hc, hrest]
  exact if_neg (by decide)

/-- A character that may neither follow in the name nor stand behind it leaves the type where it is. -/
theorem afterType_ne_of_stop {c : Char} (hc : isAsciiNameStart c = true) {name description : List Char} {stop : Char}
    (hname : ∀ c ∈ name, isTypePart c = true) (hpart : isTypePart stop = false)
    (hstop : isBlank stop = false ∧ stop ≠ ':' ∧ stop ≠ '[') (h : Edged description) (rest : List Char) :
    afterType (c :: (name ++ stop :: rest)) ≠ some description := by
  obtain ⟨hvisible, hcolon, hbracket⟩ := hstop
  rw [ne_eq, afterType_append hc hname (by rintro x ⟨rfl⟩; exact hpart), behindArguments_of_ne hbracket,
    behindColon_eq_some_iff h]
  rintro ⟨front, back, hfront, -, hrest⟩
  cases front with
  | nil => exact hcolon (List.cons.inj hrest).1
  | cons first more =>
    obtain rfl := (List.cons.inj hrest).1
    rw [List.all_eq_true.mp hfront stop List.mem_cons_self] at hvisible
    cases hvisible

/-- Arguments are taken away as a whole exactly if none of their brackets closes them early. -/
theorem afterType_arguments_iff {c : Char} (hc : isAsciiNameStart c = true)
    {name arguments space description : List Char} (hname : ∀ c ∈ name, isTypePart c = true)
    (hspace : blank space = true) (h : Edged description) :
    afterType (c :: (name ++ '[' :: (arguments ++ ']' :: ':' :: (space ++ description)))) = some description ↔
      ']' ∉ arguments := by
  rw [afterType_append hc hname (by rintro x ⟨rfl⟩; decide), behindColon_eq_some_iff h]
  by_cases hclosed : ']' ∈ arguments
  · refine iff_of_false ?_ (not_not_intro hclosed)
    obtain ⟨before, after, rfl, hbefore⟩ := List.eq_append_cons_of_mem hclosed
    rintro ⟨front, back, hfront, hback, hrest⟩
    rw [List.append_assoc, List.cons_append, behindArguments_bracket hbefore] at hrest
    -- the last bracket would have to stand in the white space around the colon
    have hwhole : (after ++ ']' :: ':' :: space) ++ description = (front ++ ':' :: back) ++ description := by
      simpa using hrest
    have hcut := List.append_cancel_right hwhole
    have hbracket : ']' ∈ front ++ ':' :: back := by
      rw [← hcut]
      exact List.mem_append_right _ List.mem_cons_self
    rcases List.mem_append.mp hbracket with hleft | hright
    · exact absurd (List.all_eq_true.mp hfront _ hleft) (by decide)
    · rcases List.mem_cons.mp hright with heq | hright
      · exact absurd heq (by decide)
      · exact absurd (List.all_eq_true.mp hback _ hright) (by decide)
  · exact iff_of_true ⟨[], space, rfl, hspace, behindArguments_bracket hclosed _⟩ hclosed

/-- **A type in front of a description is taken away exactly if it is plain.** -/
theorem afterType_eq_iff {type : TypeText} (htype : type.Proper) {space description : List Char}
    (hspace : blank space = true) (h : Edged description) :
    afterType (type.text ++ ':' :: (space ++ description)) = some description ↔ type.Plain := by
  obtain ⟨c, others, hdotted⟩ := htype.exists_dotted
  by_cases hc : isAsciiNameStart c = true
  · by_cases hparts : ∀ x ∈ others, isTypePart x = true
    · have hplain : type.Plain ↔ ∀ arguments ∈ type.arguments?, ']' ∉ arguments := by
        refine ⟨TypeText.Plain.arguments, fun harguments => ⟨?_, ?_, harguments⟩⟩
        · rw [hdotted]
          rintro x ⟨rfl⟩
          exact hc
        · rwa [hdotted]
      rw [hplain, TypeText.text, hdotted]
      cases harguments : type.arguments? with
      | none =>
        rw [List.append_nil, List.cons_append, afterType_append hc hparts (by rintro x ⟨rfl⟩; decide),
          behindColon_eq_some_iff h]
        exact iff_of_true ⟨[], space, rfl, hspace, rfl⟩ (fun arguments hnone => by cases hnone)
      | some arguments =>
        have htext : c :: others ++ '[' :: (arguments ++ [']']) ++ ':' :: (space ++ description) =
            c :: (others ++ '[' :: (arguments ++ ']' :: ':' :: (space ++ description))) := by
          simp
        rw [htext, afterType_arguments_iff hc hparts hspace h]
        refine ⟨?_, fun hall => hall arguments rfl⟩
        rintro hclosed _ ⟨rfl⟩
        exact hclosed
    · -- the first character that may not follow ends the name
      refine iff_of_false ?_ (fun hplain => hparts (by simpa [hdotted] using hplain.parts))
      have hdrop : others.dropWhile isTypePart ≠ [] := fun hnil => hparts (List.dropWhile_eq_nil_iff.mp hnil)
      obtain ⟨stop, tail, hstop⟩ := List.exists_cons_of_ne_nil hdrop
      have hothers : others.takeWhile isTypePart ++ stop :: tail = others := by
        rw [← hstop, List.takeWhile_append_dropWhile]
      have hpart : isTypePart stop = false := by
        have hhead := List.head_dropWhile_not isTypePart hdrop
        simpa only [hstop, List.head_cons] using hhead
      have hmem : stop ∈ type.dotted := by
        rw [hdotted, ← hothers]
        exact List.mem_cons_of_mem c (List.mem_append_right _ List.mem_cons_self)
      have hname : ∀ x ∈ others.takeWhile isTypePart, isTypePart x = true :=
        fun x hx => List.all_eq_true.mp List.all_takeWhile x hx
      rw [TypeText.text, hdotted, ← hothers]
      simp only [List.cons_append, List.append_assoc]
      exact afterType_ne_of_stop hc hname hpart (htype.of_mem_dotted hmem) h _
  · rw [Bool.not_eq_true] at hc
    refine iff_of_false ?_ (fun hplain => ?_)
    · rw [TypeText.text, hdotted, List.cons_append, List.cons_append, afterType_of_not_start hc]
      exact Option.some_ne_none _ ∘ Eq.symm
    · have hopening := hplain.opening c (by rw [hdotted]; rfl)
      rw [hc] at hopening
      cases hopening

/-! ## Results with types -/

section Results

variable {type : TypeText} (htype : type.Proper) {description : List Char} (h : blank description = false)
include htype h

/-- The words of a result are those of its description, behind the type and a colon. -/
theorem exists_joinWords_eq (depth : Nat) (more : List (List Char)) :
    ∃ space, blank space = true ∧
      joinWords (indented depth (type.text ++ (": ".toList ++ description)) :: more) =
        type.text ++ ':' :: (space ++ joinWords (description :: more)) := by
  have hheld : blank (indented depth (type.text ++ (": ".toList ++ description))) = false := by
    rw [blank] at h
    rw [blank_indented_eq, blank, List.all_append, List.all_append, h, Bool.and_false, Bool.and_false]
  obtain ⟨front, back, hfront, hback, hparts⟩ := exists_append_trim description
  have htrim : trim (type.text ++ (": ".toList ++ description)) =
      type.text ++ (": ".toList ++ (front ++ trim description)) := by
    have hstart := trimStart_of_unindented (htype.unindented_text (": ".toList ++ description))
    have hsplit : type.text ++ (": ".toList ++ description) =
        type.text ++ (": ".toList ++ front) ++ trim description ++ back := by
      conv => lhs; rw [hparts]
      simp only [List.append_assoc]
    rw [trim, hstart, hsplit, trimEnd_append _ hback, trimEnd_append_of_not_blank (edged_trim h).blank,
      (edged_trim h).trimEnd]
    simp only [List.append_assoc]
  refine ⟨' ' :: front, hfront, ?_⟩
  rw [joinWords_cons hheld, trim_indented_eq, htrim, joinWords_cons h]
  simp only [List.append_assoc]
  rfl

/-- **The description of a result is read without its type exactly if the type is plain.** -/
theorem returns?_eq_iff {depth : Nat} {more lines : List (List Char)}
    (hlines : titled returnTitles lines =
      some (indented depth (type.text ++ (": ".toList ++ description)) :: more)) :
    returns? lines = some (String.ofList (joinWords (description :: more))) ↔ type.Plain := by
  obtain ⟨space, hspace, htext⟩ := exists_joinWords_eq htype h depth more
  have hedged : Edged (joinWords (description :: more)) := edged_joinWords List.mem_cons_self h
  have hreturns : returns? lines = some (String.ofList (joinWords (description :: more))) ↔
      (afterType (type.text ++ ':' :: (space ++ joinWords (description :: more)))).getD
        (type.text ++ ':' :: (space ++ joinWords (description :: more))) = joinWords (description :: more) := by
    rw [returns?, hlines]
    dsimp only
    rw [htext]
    constructor
    · intro hsome
      split at hsome
      · cases hsome
      · exact String.ofList_injective (Option.some.inj hsome)
    · intro heq
      rw [heq, if_neg (by simpa using hedged.ne_nil)]
  rw [hreturns, ← afterType_eq_iff htype hspace hedged]
  cases afterType (type.text ++ ':' :: (space ++ joinWords (description :: more))) with
  | none =>
    -- the whole text is longer than the description
    refine iff_of_false (fun heq => ?_) (Option.some_ne_none _ ∘ Eq.symm)
    have hlength := congrArg List.length heq
    rw [Option.getD_none, List.length_append, List.length_cons, List.length_append] at hlength
    omega
  | some rest => rw [Option.getD_some, Option.some_inj]

end Results

/-! ## Docstrings -/

/-- **Types are taken away as a whole exactly if nothing in them ends them early**: the type of a parameter if it
holds neither a colon nor a closing round bracket, the type of a result if its name opens with an ASCII letter or an
underscore and goes on with word characters and points, and its arguments hold no closing square bracket. -/
theorem types_stripped_iff (doc : String) :
    (∀ (depth : Nat) (items : List TypedItem), TypedList depth items →
      titled argTitles (lines doc.toList) = some (items.flatMap (TypedItem.lines depth)) →
      ∀ item ∈ items,
        ((Convention.documentedArgs .google doc).get? (String.ofList item.name) = some item.entry.2 ↔ item.Simple)) ∧
    ∀ (depth : Nat) (type : TypeText) (description : List Char) (more : List (List Char)),
      type.Proper → blank description = false →
      titled returnTitles (lines doc.toList) =
        some (indented depth (type.text ++ (": ".toList ++ description)) :: more) →
      (Convention.documentedReturn? .google doc = some (String.ofList (joinWords (description :: more))) ↔
        type.Plain) := by
  constructor
  · intro depth items h hlines item hmem
    show (args (lines doc.toList)).get? (String.ofList item.name) = some item.entry.2 ↔ item.Simple
    rw [args_of_titled_typed h.proper hlines]
    exact get?_stored_eq_some_iff h hmem
  · intro depth type description more htype h hlines
    exact returns?_eq_iff htype h hlines

/-- A docstring with a nested type in each of its sections. -/
def nestedDoc : String :=
  "Cut a table.\n\nArgs:\n    rows (slice(int, int)): Which rows.\n    by (list[str]): Columns.\n\nReturns:\n    " ++
    "Dict[str, List[int]]: The cut table."

/-- An entry whose type has brackets of its own. -/
def nestedItem : TypedItem := ⟨⟨"rows".toList, "Which rows.".toList, []⟩, some "slice(int, int)".toList⟩

/-- An entry whose type has square brackets only. -/
def simpleItem : TypedItem := ⟨⟨"by".toList, "Columns.".toList, []⟩, some "list[str]".toList⟩

/-- The type of the result. -/
def nestedType : TypeText := ⟨["Dict".toList], some "str, List[int]".toList⟩

theorem types_stripped_iff_nestedDoc :
    TypedList 4 [nestedItem, simpleItem] ∧ nestedType.Proper ∧
      (Convention.documentedArgs .google nestedDoc).get? "by" = some "Columns." ∧
      (Convention.documentedArgs .google nestedDoc).get? "rows" ≠ some "Which rows." ∧
      Convention.documentedReturn? .google nestedDoc ≠ some "The cut table." := by
  have hargs : titled argTitles (lines nestedDoc.toList) =
      some ([nestedItem, simpleItem].flatMap (TypedItem.lines 4)) := by
    decide +kernel
  have hreturn : titled returnTitles (lines nestedDoc.toList) =
      some [indented 4 (nestedType.text ++ (": ".toList ++ "The cut table.".toList))] := by
    decide +kernel
  have hentry := (types_stripped_iff nestedDoc).1 4 [nestedItem, simpleItem] (by decide +kernel) hargs
  have hresult := (types_stripped_iff nestedDoc).2 4 nestedType "The cut table.".toList [] (by decide +kernel)
    (by decide +kernel) hreturn
  have hsimple : simpleItem.entry = ("by", "Columns.") := by decide +kernel
  have hnested : nestedItem.entry = ("rows", "Which rows.") := by decide +kernel
  refine ⟨by decide +kernel, by decide +kernel, ?_, ?_, ?_⟩
  · have hread : (Convention.documentedArgs .google nestedDoc).get? simpleItem.entry.1 = some simpleItem.entry.2 :=
      (hentry simpleItem (by decide +kernel)).mpr (by decide +kernel)
    rwa [hsimple] at hread
  · have hread : (Convention.documentedArgs .google nestedDoc).get? nestedItem.entry.1 ≠ some nestedItem.entry.2 :=
      mt (hentry nestedItem (by decide +kernel)).mp (by decide +kernel)
    rwa [hnested] at hread
  · exact mt hresult.mp (by decide +kernel)

/-- Of a nested type a bracket stays in the name of a parameter, and all of it in front of a result. -/
theorem nested_types_left :
    Convention.documentedArgs .google nestedDoc = [("rows )", "Which rows."), ("by", "Columns.")] ∧
      Convention.documentedReturn? .google nestedDoc = some "Dict[str, List[int]]: The cut table." := by
  decide +kernel

end ClassCli.Docstring.Indented
