import ClassCli.Proofs.Outline.TypeReading

/-!
# Types that are read back from their text

A type of dotted names is written like in an annotation: the arguments of a name stand in square brackets, with
a comma and a space between them. Each of its parts closes the brackets that it opens and has commas only within
them, so that the arguments are found again, however deep they are nested.

* **`IsPlain`**, **`written`** — such types and their text.
* **`splitTop_join`** — joined arguments are found again.
* **`read_wrapped`** — white space and quotes around a text make no difference.
* **`parse_wrapped`** — a type is read back from its text.
-/

namespace ClassCli.Outline.TypeExpr

open Text

/-! ## Types and their text -/

mutual

/-- Whether a type consists of dotted names, some of them with arguments. -/
def IsPlain : TypeExpr → Prop
  | .name text => isDottedName text.toList = true
  | .subscript base args => isDottedName base.toList = true ∧ ArePlain args
  | .other _ => False

/-- The same for all types of a list. -/
def ArePlain : List TypeExpr → Prop
  | [] => True
  | t :: ts => IsPlain t ∧ ArePlain ts

end

mutual

/-- The text of a type. -/
def written : TypeExpr → List Char
  | .name text => text.toList
  | .subscript base args => base.toList ++ '[' :: (join [',', ' '] (writtenAll args) ++ [']'])
  | .other text => text.toList

/-- The texts of all types of a list. -/
def writtenAll : List TypeExpr → List (List Char)
  | [] => []
  | t :: ts => written t :: writtenAll ts

end

/-- A text with white space and matching quotes around it, in any order. -/
inductive Wrapped (s : List Char) : List Char → Prop
  | bare : Wrapped s s
  | spaced {t front back : List Char} (h : Wrapped s t) (hfront : blank front = true) (hback : blank back = true) :
    Wrapped s (front ++ (t ++ back))
  | quoted {t : List Char} {quote : Char} (h : Wrapped s t) (hquote : quote = '\x22' ∨ quote = '\x27') :
    Wrapped s (quote :: (t ++ [quote]))

/-! ## White space and quotes -/

theorem between_quoted (quote : Char) (s : List Char) : between quote (quote :: (s ++ [quote])) = some s := by
  have hafter : afterStart [quote] (quote :: (s ++ [quote])) = some (s ++ [quote]) := afterStart_append [quote] _
  rw [between, hafter, Option.bind_some, beforeEnd_append]

theorem unquoted_quoted {quote : Char} (hquote : quote = '\x22' ∨ quote = '\x27') (s : List Char) :
    unquoted (quote :: (s ++ [quote])) = some s := by
  rcases hquote with rfl | rfl
  · rw [unquoted, between_quoted]
  · have hdouble : between '\x22' ('\x27' :: (s ++ ['\x27'])) = none := by
      rw [between, afterStart_eq_none (by simp), Option.bind_none]
    rw [unquoted, hdouble, between_quoted]

theorem read_quoted {quote : Char} (hquote : quote = '\x22' ∨ quote = '\x27') (s : List Char) :
    read (quote :: (s ++ [quote])) = read s := by
  have hvisible : isBlank quote = false := by
    rcases hquote with rfl | rfl
    · rfl
    · rfl
  have hedged : Edged (quote :: (s ++ [quote])) := by
    refine ⟨⟨quote, rfl, hvisible⟩, quote, ?_, hvisible⟩
    rw [← List.cons_append, List.getLast?_concat]
  rw [read_eq, readStep, hedged.trim, unquoted_quoted hquote]

/-- **White space and matching quotes around a text make no difference.** -/
theorem read_wrapped {s t : List Char} (h : Wrapped s t) : read t = read s := by
  induction h with
  | bare => rfl
  | spaced _ hfront hback ih =>
    rw [← read_trim, trim_append_of_blank_left hfront, trim_append_of_blank_right hback, read_trim, ih]
  | quoted _ hquote ih => rw [read_quoted hquote, ih]

/-! ## Arguments -/

/-- Texts that are joined keep their brackets balanced, and their commas are within the brackets around them. -/
theorem within_join {pieces : List (List Char)} (h : ∀ piece ∈ pieces, Enclosed [',', '|'] piece) :
    Within [',', '|'] 1 (join [',', ' '] pieces)
      ∧ closed (join [',', ' '] pieces) = opened (join [',', ' '] pieces) := by
  have hseparator : Within [',', '|'] 1 [',', ' '] := by decide
  induction pieces with
  | nil => exact ⟨within_nil _ _, rfl⟩
  | cons piece rest ih =>
    obtain ⟨hpiece, hothers⟩ := List.forall_mem_cons.mp h
    have hfirst : Within [',', '|'] 1 piece := hpiece.within.mono (Nat.zero_le 1)
    cases rest with
    | nil => exact ⟨hfirst, hpiece.balanced⟩
    | cons next others =>
      obtain ⟨hwithin, hbalanced⟩ := ih hothers
      have hpair : closed [',', ' '] = opened [',', ' '] := rfl
      rw [join_cons_cons]
      constructor
      · -- behind each part as many brackets are open as in front of it
        refine Within.append (hfirst.append ?_) ?_
        · rwa [hpiece.balanced, Nat.add_sub_cancel]
        · rwa [closed_append, opened_append, hpiece.balanced, hpair, Nat.add_sub_cancel]
      · simp only [closed_append, opened_append, hpiece.balanced, hpair, hbalanced]

/-- **Arguments that are joined are found again.** -/
theorem splitTop_join {pieces : List (List Char)} (hne : pieces ≠ [])
    (h : ∀ piece ∈ pieces, Enclosed [',', '|'] piece ∧ Edged piece) :
    splitTop ',' (join [',', ' '] pieces) = pieces := by
  induction pieces with
  | nil => exact absurd rfl hne
  | cons piece rest ih =>
    obtain ⟨⟨henclosed, hedged⟩, hothers⟩ := List.forall_mem_cons.mp h
    have hpiece : Enclosed [','] piece := henclosed.of_subset (by simp)
    cases rest with
    | nil => rw [join, splitTop_enclosed hpiece, hedged.trim]
    | cons next others =>
      have hspace : splitTop ',' (' ' :: join [',', ' '] (next :: others)) = next :: others := by
        rw [← splitTop_trim rfl, ← List.singleton_append, trim_append_of_blank_left rfl, splitTop_trim rfl]
        exact ih (List.cons_ne_nil _ _) hothers
      have htext : join [',', ' '] (piece :: next :: others)
          = piece ++ ',' :: ' ' :: join [',', ' '] (next :: others) := by
        rw [join_cons_cons, List.append_assoc]
        rfl
      rw [htext, splitTop_mark (by decide) hpiece, hedged.trim, hspace]

/-! ## Reading what is written -/

mutual

theorem edged_written : ∀ {t : TypeExpr}, IsPlain t → Edged (written t)
  | .name _, h => edged_of_isDottedName h
  | .subscript _ _, h => (edged_of_isDottedName h.1).append (t := [']']) ⟨⟨_, rfl, rfl⟩, _, rfl, rfl⟩ ('[' :: _)

theorem enclosed_written : ∀ {t : TypeExpr}, IsPlain t → Enclosed [',', '|'] (written t)
  | .name _, h => enclosed_of_isDottedName h
  | .subscript _ _, h => by
    obtain ⟨hwithin, hbalanced⟩ := within_join (enclosed_writtenAll h.2)
    exact (enclosed_of_isDottedName h.1).append (enclosed_square (by decide) hwithin hbalanced)

theorem enclosed_writtenAll :
    ∀ {ts : List TypeExpr}, ArePlain ts → ∀ piece ∈ writtenAll ts, Enclosed [',', '|'] piece
  | [], _ => List.forall_mem_nil _
  | _ :: _, h => List.forall_mem_cons.mpr ⟨enclosed_written h.1, enclosed_writtenAll h.2⟩

end

theorem edged_writtenAll {ts : List TypeExpr} (h : ArePlain ts) : ∀ piece ∈ writtenAll ts, Edged piece := by
  induction ts with
  | nil => exact List.forall_mem_nil _
  | cons t ts ih => exact List.forall_mem_cons.mpr ⟨edged_written h.1, ih h.2⟩

/-- The arguments between brackets, none of them among them. -/
theorem pieces_writtenAll {ts : List TypeExpr} (h : ArePlain ts) :
    (splitTop ',' (join [',', ' '] (writtenAll ts))).filter (!·.isEmpty) = writtenAll ts := by
  cases ts with
  | nil => rfl
  | cons t ts =>
    have hedged := edged_writtenAll h
    have hsplit : splitTop ',' (join [',', ' '] (writtenAll (t :: ts))) = writtenAll (t :: ts) :=
      splitTop_join (List.cons_ne_nil _ _) fun piece hpiece =>
        ⟨enclosed_writtenAll h piece hpiece, hedged piece hpiece⟩
    rw [hsplit, List.filter_eq_self]
    intro piece hpiece
    simpa using (hedged piece hpiece).ne_nil

theorem read_name {s : List Char} (h : isDottedName s = true) : read s = .name (String.ofList s) := by
  obtain ⟨c, hc, -⟩ := (edged_of_isDottedName h).head
  have hmem : c ∈ s := List.mem_of_head? hc
  have hquotes : c ≠ '\x22' ∧ c ≠ '\x27' := by
    constructor
    · rintro rfl
      exact not_mem_of_isDottedName h (by decide) (by decide) hmem
    · rintro rfl
      exact not_mem_of_isDottedName h (by decide) (by decide) hmem
  have hsubscripted : subscripted s = none := by
    rw [subscripted, splitOnce_of_not_mem (not_mem_of_isDottedName h (by decide) (by decide))]
  rw [read_eq, readStep, (edged_of_isDottedName h).trim, unquoted_eq_none (Or.inl hc) hquotes,
    splitTop_enclosed ((enclosed_of_isDottedName h).of_subset (by simp))]
  dsimp only
  rw [if_neg (by simp), parsePlain, hsubscripted]
  exact if_pos h

mutual

/-- **A type is read back from its text.** -/
theorem read_written : ∀ {t : TypeExpr}, IsPlain t → read (written t) = t
  | .name text, h => by rw [written, read_name h, String.ofList_toList]
  | .subscript base args, h => by
    obtain ⟨hwithin, hbalanced⟩ := within_join (enclosed_writtenAll h.2)
    rw [written, read_subscript h.1 (hwithin.of_subset (by simp)) hbalanced, pieces_writtenAll h.2,
      map_read_writtenAll h.2, String.ofList_toList]

theorem map_read_writtenAll : ∀ {ts : List TypeExpr}, ArePlain ts → (writtenAll ts).map read = ts
  | [], _ => rfl
  | _ :: _, h => by rw [writtenAll, List.map_cons, read_written h.1, map_read_writtenAll h.2]

end

/-- **Types of dotted names come back from their text**, with any number of arguments and to any depth, and with
white space and matching quotes around the text. -/
theorem parse_wrapped {t : TypeExpr} {text : String} (h : IsPlain t) (htext : Wrapped (written t) text.toList) :
    parse text = t := by
  rw [parse_eq_read, read_wrapped htext, read_written h]

/-- A type with several arguments, with one that has arguments of its own, and with none. -/
def tableType : TypeExpr :=
  .subscript "dict" [.name "str", .subscript "typing.List" [.subscript "tuple" [], .name "None"]]

/-- Quotes, spaces and a line end around the text of a type. -/
theorem parse_wrapped_tableType :
    IsPlain tableType ∧ written tableType = "dict[str, typing.List[tuple[], None]]".toList
      ∧ Wrapped (written tableType) " \x22'dict[str, typing.List[tuple[], None]] '\x22\n".toList
      ∧ parse " \x22'dict[str, typing.List[tuple[], None]] '\x22\n" = tableType := by
  have hplain : IsPlain tableType := by
    simp only [tableType, IsPlain, ArePlain, and_true]
    decide
  have hwrapped : Wrapped (written tableType) " \x22'dict[str, typing.List[tuple[], None]] '\x22\n".toList := by
    have hspace : Wrapped (written tableType) ([] ++ (written tableType ++ [' '])) :=
      .spaced .bare rfl rfl
    have hquotes := (hspace.quoted (Or.inr rfl)).quoted (Or.inl rfl)
    have hfront : blank [' '] = true := rfl
    have hback : blank ['\n'] = true := rfl
    exact hquotes.spaced hfront hback
  exact ⟨hplain, rfl, hwrapped, parse_wrapped hplain hwrapped⟩

end ClassCli.Outline.TypeExpr
