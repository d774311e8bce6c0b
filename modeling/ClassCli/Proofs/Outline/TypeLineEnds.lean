import Mathlib.Data.List.Forall2
import ClassCli.Extraction.Arguments
import ClassCli.Proofs.Text.Letters
import ClassCli.Proofs.Text.LineEnds

/-!
# Type annotations and line ends

An annotation that runs over several lines gives an argument the same type and multiplicity, whether its
lines end with a carriage return or not: the names in it stand on one line each, and everything between them
is trimmed.

* **`TypeExpr.SameNames`** — types that differ in what is no name only.
* **`parseTo_withReturns`** — an annotation with carriage returns has the same names.
* **`typing_parse_withReturns`** — and gives the same type.
-/

namespace ClassCli

namespace Text

variable {mark : Char} {s piece : List Char}

theorem join_splitAt (mark : Char) (s : List Char) : join [mark] (splitAt mark s) = s := by
  induction s with
  | nil => rfl
  | cons c s ih =>
    obtain ⟨first, rest, hpieces⟩ := exists_splitAt mark s
    by_cases hc : c = mark
    · subst hc
      rw [splitAt_mark, hpieces, join_cons_cons, ← hpieces, ih]
      rfl
    · rw [splitAt_cons hc hpieces]
      rw [hpieces] at ih
      cases rest with
      | nil => exact congrArg (c :: ·) ih
      | cons next rest => exact congrArg (c :: ·) ih

theorem isAsciiName_withReturns (s : List Char) : isAsciiName (withReturns s) = isAsciiName s := by
  rcases withReturns_cases s with rfl | ⟨rest, rfl⟩ | ⟨c, rest, hc, rfl⟩
  · rfl
  · rfl
  · rw [withReturns_cons hc, isAsciiName, all_withReturns (by decide)]
    rfl

/-- No other character is in a dotted name, so that it stands on one line. -/
theorem not_mem_of_isDottedName (h : isDottedName s = true) {c : Char} (hpart : isAsciiNamePart c = false)
    (hpoint : c ≠ '.') : c ∉ s := by
  intro hmem
  rw [← join_splitAt '.' s, mem_join_iff (by simpa using hpoint)] at hmem
  obtain ⟨piece, hpiece, hmem⟩ := hmem
  exact not_mem_name (List.all_eq_true.mp h piece hpiece) hpart hmem

theorem isDottedName_withReturns (s : List Char) : isDottedName (withReturns s) = isDottedName s := by
  rw [isDottedName, splitAt_withReturns (by decide), List.all_map]
  congr 1
  funext piece
  exact isAsciiName_withReturns piece

theorem length_trim_le (s : List Char) : (trim s).length ≤ s.length := by
  have hend (s : List Char) : (trimEnd s).length ≤ s.length := by
    have hreverse : s.reverse.length = s.length := List.length_reverse
    rw [trimEnd, List.length_reverse, ← hreverse]
    exact (List.dropWhile_suffix _).length_le
  exact Nat.le_trans (hend _) (List.dropWhile_suffix _).length_le

end Text

namespace Outline.TypeExpr

open Extraction (isSequence itemKind typing)
open Text

/-! ## Types with the same names -/

/-- The same names, with whatever is no name between them. -/
inductive SameNames : TypeExpr → TypeExpr → Prop
  | name (text : String) : SameNames (.name text) (.name text)
  | subscript (base : String) {args args' : List TypeExpr} :
      List.Forall₂ SameNames args args' → SameNames (.subscript base args) (.subscript base args')
  | other (a b : String) : SameNames (.other a) (.other b)

theorem SameNames.baseName? {t t' : TypeExpr} (h : SameNames t t') : t'.baseName? = t.baseName? := by
  cases h <;> rfl

/-- **Types with the same names** give an argument the same type and multiplicity. -/
theorem SameNames.typing : ∀ {t t' : TypeExpr}, SameNames t t' → Extraction.typing t' = Extraction.typing t
  | _, _, .name _ => rfl
  | _, _, .other _ _ => rfl
  | _, _, .subscript base .nil => rfl
  | _, _, .subscript base (.cons hfirst hrest) => by
    rw [Extraction.typing, Extraction.typing, hfirst.typing, itemKind, itemKind]
    dsimp only [List.head?_cons, Option.bind_some]
    rw [hfirst.baseName?]

/-! ## Pieces -/

/-- A character belongs to the current piece or ends it, whatever the piece is and whatever follows. -/
theorem splitTopFrom_cons (mark : Char) (depth : Nat) (c : Char) :
    (∃ depth', ∀ front s, splitTopFrom mark depth front (c :: s) = splitTopFrom mark depth' (c :: front) s)
      ∨ c = mark ∧ ∀ front s, splitTopFrom mark depth front (c :: s)
        = front.reverse :: splitTopFrom mark depth [] s := by
  by_cases hopen : (c = '[' || c = '(') = true
  · exact Or.inl ⟨depth + 1, fun front s => by rw [splitTopFrom, if_pos hopen]⟩
  by_cases hclose : (c = ']' || c = ')') = true
  · exact Or.inl ⟨depth - 1, fun front s => by rw [splitTopFrom, if_neg hopen, if_pos hclose]⟩
  by_cases hcut : (c = mark && depth == 0) = true
  · have hmark : c = mark := by
      rw [Bool.and_eq_true, decide_eq_true_eq] at hcut
      exact hcut.1
    exact Or.inr ⟨hmark, fun front s => by rw [splitTopFrom, if_neg hopen, if_neg hclose, if_pos hcut]⟩
  · exact Or.inl ⟨depth, fun front s => by rw [splitTopFrom, if_neg hopen, if_neg hclose, if_neg hcut]⟩

theorem length_splitTopFrom (mark : Char) (s : List Char) :
    ∀ (depth : Nat) (front : List Char), (splitTopFrom mark depth front s).length ≤ s.length + 1 := by
  induction s with
  | nil => exact fun _ _ => Nat.le_refl 1
  | cons c s ih =>
    intro depth front
    rw [List.length_cons]
    rcases splitTopFrom_cons mark depth c with ⟨depth', hcons⟩ | ⟨-, hcut⟩
    · rw [hcons]
      have hshort := ih depth' (c :: front)
      omega
    · rw [hcut, List.length_cons]
      have hshort := ih depth []
      omega

/-- A piece of a text is shorter by the marks between the pieces. -/
theorem length_of_mem_splitTopFrom (mark : Char) (s : List Char) :
    ∀ (depth : Nat) (front : List Char), ∀ piece ∈ splitTopFrom mark depth front s,
      piece.length + (splitTopFrom mark depth front s).length ≤ front.length + s.length + 1 := by
  induction s with
  | nil =>
    intro depth front piece hpiece
    rw [splitTopFrom] at hpiece ⊢
    obtain rfl := List.mem_singleton.mp hpiece
    simp
  | cons c s ih =>
    intro depth front piece hpiece
    rw [List.length_cons]
    rcases splitTopFrom_cons mark depth c with ⟨depth', hcons⟩ | ⟨-, hcut⟩
    · rw [hcons] at hpiece ⊢
      have hshort := ih depth' (c :: front) piece hpiece
      rw [List.length_cons] at hshort
      omega
    · rw [hcut] at hpiece ⊢
      rw [List.length_cons]
      rcases List.mem_cons.mp hpiece with rfl | hpiece
      · have hshort := length_splitTopFrom mark s depth []
        rw [List.length_reverse]
        omega
      · have hshort := ih depth [] piece hpiece
        rw [List.length_nil] at hshort
        omega

theorem splitTopFrom_withReturns {mark : Char} (h : mark ≠ '\r' ∧ mark ≠ '\n') (s : List Char) :
    ∀ (depth : Nat) (front : List Char),
      splitTopFrom mark depth (withReturns front.reverse).reverse (withReturns s)
        = (splitTopFrom mark depth front s).map withReturns := by
  induction s with
  | nil =>
    intro depth front
    rw [withReturns_nil, splitTopFrom, splitTopFrom, List.reverse_reverse]
    rfl
  | cons c s ih =>
    intro depth front
    by_cases hc : c = '\n'
    · subst hc
      have hfeed : splitTopFrom mark depth front ('\n' :: s) = splitTopFrom mark depth ('\n' :: front) s := by
        simp [splitTopFrom, Ne.symm h.2]
      have hreturn (front : List Char) : splitTopFrom mark depth front ('\r' :: '\n' :: withReturns s)
          = splitTopFrom mark depth ('\n' :: '\r' :: front) (withReturns s) := by
        simp [splitTopFrom, Ne.symm h.1, Ne.symm h.2]
      rw [withReturns_feed, hreturn, hfeed, ← ih, List.reverse_cons, withReturns_append, List.reverse_append]
      rfl
    · rw [withReturns_cons hc]
      rcases splitTopFrom_cons mark depth c with ⟨depth', hcons⟩ | ⟨-, hcut⟩
      · rw [hcons, hcons, ← ih, List.reverse_cons, withReturns_append, List.reverse_append, withReturns_cons hc]
        rfl
      · rw [hcut, hcut, List.reverse_reverse, List.map_cons, ← ih]
        rfl

theorem splitTop_withReturns {mark : Char} (h : mark ≠ '\r' ∧ mark ≠ '\n') (s : List Char) :
    splitTop mark (withReturns s) = (splitTop mark s).map withReturns := by
  rw [splitTop, splitTop, List.map_map]
  have hpieces := splitTopFrom_withReturns h s 0 []
  rw [List.reverse_nil, withReturns_nil, List.reverse_nil] at hpieces
  rw [hpieces, List.map_map]
  congr 1
  funext piece
  exact trim_withReturns piece

theorem length_of_mem_splitTop {mark : Char} {s piece : List Char} (h : piece ∈ splitTop mark s) :
    piece.length + (splitTop mark s).length ≤ s.length + 1 := by
  rw [splitTop] at h ⊢
  obtain ⟨whole, hwhole, rfl⟩ := List.mem_map.mp h
  have hlength := length_of_mem_splitTopFrom mark s 0 [] whole hwhole
  have htrim := length_trim_le whole
  rw [List.length_nil] at hlength
  rw [List.length_map]
  omega

/-! ## Annotations -/

theorem between_withReturns {quote : Char} (h : NoEnds [quote]) (s : List Char) :
    between quote (withReturns s) = (between quote s).map withReturns := by
  unfold between
  rw [afterStart_withReturns h]
  cases afterStart [quote] s with
  | none => rfl
  | some after => exact beforeEnd_withReturns h after

theorem unquoted_withReturns (s : List Char) : unquoted (withReturns s) = (unquoted s).map withReturns := by
  rw [unquoted, between_withReturns (by decide), between_withReturns (by decide), unquoted]
  cases between '\x22' s with
  | none => rfl
  | some inner => rfl

theorem length_of_afterStart {start s rest : List Char} (h : afterStart start s = some rest) :
    s.length = start.length + rest.length := by
  rw [eq_append_of_afterStart h, List.length_append]

theorem length_of_beforeEnd {ending s rest : List Char} (h : beforeEnd ending s = some rest) :
    s.length = rest.length + ending.length := by
  rw [eq_append_of_beforeEnd h, List.length_append]

theorem length_lt_of_unquoted {s inner : List Char} (h : unquoted s = some inner) :
    inner.length < s.length := by
  have hbetween {quote : Char} (h : between quote s = some inner) : inner.length < s.length := by
    obtain ⟨after, hafter, hinner⟩ := Option.bind_eq_some_iff.mp h
    have hfront := length_of_afterStart hafter
    have hback := length_of_beforeEnd hinner
    rw [List.length_singleton] at hfront hback
    omega
  unfold unquoted at h
  split at h
  · next hdouble =>
    cases h
    exact hbetween hdouble
  · exact hbetween h

/-- A name with arguments stays one; the name stands on one line. -/
theorem subscripted_withReturns (s : List Char) :
    subscripted (withReturns s) = (subscripted s).map fun (base, inner) => (base, withReturns inner) := by
  unfold subscripted
  rw [splitOnce_withReturns (by decide)]
  cases splitOnce '[' s with
  | none => rfl
  | some parts =>
    obtain ⟨before, after⟩ := parts
    dsimp only [Option.map_some]
    rw [beforeEnd_withReturns (by decide), trim_withReturns, isDottedName_withReturns]
    cases beforeEnd [']'] after with
    | none => rfl
    | some inner =>
      dsimp only [Option.map_some]
      cases hdotted : isDottedName (trim before) with
      | false => rfl
      | true =>
        rw [withReturns_of_not_mem (not_mem_of_isDottedName hdotted (by decide) (by decide))]
        rfl

theorem length_lt_of_splitOnce {mark : Char} {s before after : List Char}
    (h : splitOnce mark s = some (before, after)) :
    after.length < s.length := by
  unfold splitOnce at h
  have hsuffix := (List.dropWhile_suffix (l := s) (· != mark)).length_le
  split at h
  · cases h
  · next c rest hdrop =>
    cases h
    rw [hdrop, List.length_cons] at hsuffix
    omega

theorem length_lt_of_subscripted {s base inner : List Char} (h : subscripted s = some (base, inner)) :
    inner.length < s.length := by
  unfold subscripted at h
  split at h
  · cases h
  · next before after hsplit =>
    have hafter := length_lt_of_splitOnce hsplit
    dsimp only at h
    split at h
    · next found hend =>
      split at h
      · cases h
        have hinner := length_of_beforeEnd hend
        omega
      · cases h
    · cases h

/-- Neither a piece `None` nor an empty one is made by carriage returns. -/
theorem filter_map_withReturns {test : List Char → Bool} (htest : ∀ s, test (withReturns s) = test s)
    (pieces : List (List Char)) : (pieces.map withReturns).filter test
      = (pieces.filter test).map withReturns := by
  rw [List.filter_map]
  congr 1
  exact List.filter_congr fun piece _ => htest piece

theorem ne_none_withReturns (s : List Char) :
    (withReturns s != ['N', 'o', 'n', 'e']) = (s != ['N', 'o', 'n', 'e']) := by
  rw [Bool.eq_iff_iff, bne_iff_ne, bne_iff_ne, Ne, Ne]
  exact not_congr (withReturns_inj (t := ['N', 'o', 'n', 'e']))

/-- A type without a union: a name with arguments, a name, or neither. -/
def parsePlain (parse : List Char → TypeExpr) (s : List Char) : TypeExpr :=
  match subscripted s with
  | some (base, inner) => .subscript (String.ofList base) (((splitTop ',' inner).filter (!·.isEmpty)).map parse)
  | none => if isDottedName s then .name (String.ofList s) else .other (String.ofList s)

theorem parsePlain_withReturns {parse parse' : List Char → TypeExpr} {s : List Char}
    (h : ∀ inner, inner.length < s.length → SameNames (parse inner) (parse' (withReturns inner))) :
    SameNames (parsePlain parse s) (parsePlain parse' (withReturns s)) := by
  unfold parsePlain
  rw [subscripted_withReturns, isDottedName_withReturns]
  cases hsubscript : subscripted s with
  | some found =>
    obtain ⟨base, inner⟩ := found
    dsimp only [Option.map_some]
    rw [splitTop_withReturns (by decide),
      filter_map_withReturns (fun piece => by rw [isEmpty_withReturns]), List.map_map]
    refine .subscript _ ?_
    rw [List.forall₂_map_left_iff, List.forall₂_map_right_iff, List.forall₂_same]
    intro piece hpiece
    have hpiece := List.mem_of_mem_filter hpiece
    have hlength := length_of_mem_splitTop hpiece
    have hcount := List.length_pos_of_mem hpiece
    have hinner := length_lt_of_subscripted hsubscript
    exact h piece (by omega)
  | none =>
    dsimp only [Option.map_none]
    cases hdotted : isDottedName s with
    | true =>
      rw [if_pos rfl, if_pos rfl, withReturns_of_not_mem (not_mem_of_isDottedName hdotted (by decide) (by decide))]
      exact .name _
    | false => exact .other _ _

/-- The members of a union other than `None`. -/
def members (s : List Char) : List (List Char) := (splitTop '|' s).filter (· != ['N', 'o', 'n', 'e'])

theorem parseTo_succ (depth : Nat) (s : List Char) :
    parseTo (depth + 1) s = match unquoted (trim s) with
      | some inner => parseTo depth inner
      | none =>
        if 2 ≤ (splitTop '|' (trim s)).length then
          match members (trim s) with
          | [member] => parseTo depth member
          | _ => .other (String.ofList (trim s))
        else parsePlain (parseTo depth) (trim s) := by
  rw [parseTo]
  dsimp only
  cases unquoted (trim s) with
  | some inner => rfl
  | none =>
    unfold members
    match splitTop '|' (trim s) with
    | [] => rfl
    | [_] => rfl
    | first :: second :: more => exact (if_pos (Nat.le_add_left 2 more.length)).symm

/-- **An annotation with carriage returns** has the same names. The text bounds the depth, so that it does not
matter that it is longer with carriage returns. -/
theorem parseTo_withReturns (depth : Nat) : ∀ (depth' : Nat) (s : List Char),
    s.length < depth → s.length < depth' → SameNames (parseTo depth s) (parseTo depth' (withReturns s)) := by
  induction depth with
  | zero => omega
  | succ depth ih =>
    intro depth' s hdepth hdepth'
    obtain ⟨depth', rfl⟩ : ∃ n, depth' = n + 1 := ⟨depth' - 1, by omega⟩
    have htrim := length_trim_le s
    have hnext (inner : List Char) (h : inner.length < (trim s).length) :
        SameNames (parseTo depth inner) (parseTo depth' (withReturns inner)) :=
      ih depth' inner (by omega) (by omega)
    rw [parseTo_succ, parseTo_succ, trim_withReturns, unquoted_withReturns]
    cases hunquoted : unquoted (trim s) with
    | some inner => exact hnext inner (length_lt_of_unquoted hunquoted)
    | none =>
      have hmembers : members (withReturns (trim s)) = (members (trim s)).map withReturns := by
        rw [members, splitTop_withReturns (by decide), filter_map_withReturns ne_none_withReturns]
        rfl
      rw [splitTop_withReturns (by decide), List.length_map, hmembers]
      dsimp only [Option.map_none]
      split
      · next htwo =>
        match hfound : members (trim s) with
        | [] => exact .other _ _
        | [member] =>
          have hmem : member ∈ members (trim s) := by rw [hfound]; exact List.mem_singleton_self member
          have hlength := length_of_mem_splitTop (List.mem_of_mem_filter hmem)
          exact hnext member (by omega)
        | _ :: _ :: _ => exact .other _ _
      · exact parsePlain_withReturns hnext

/-- **Line ends do not matter for an annotation.** -/
theorem typing_parse_withReturns {text text' : String} (h : text'.toList = withReturns text.toList) :
    typing (parse text') = typing (parse text) := by
  have hlength := length_le_withReturns text.toList
  rw [parse, parse, h]
  exact (parseTo_withReturns _ _ text.toList (by omega) (by omega)).typing

end Outline.TypeExpr

end ClassCli
