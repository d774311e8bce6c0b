import Mathlib.Data.List.Forall2
import ClassCli.Proofs.Outline.StringValues
import ClassCli.Proofs.Text.LineEnds

/-!
# String values and line ends

The value of a literal that is written with carriage returns has carriage returns in front of the line feeds
that are written in it; line feeds that escapes stand for stay as they are. An escaped line feed is dropped
from the value only without a carriage return in front of it.

* **`Returned`** — a text with carriage returns in front of some of its line feeds.
* **`joinsLines`** — whether an escaped line feed is dropped from the value of a literal.
* **`values?_returns`** — the value of literals that are written with carriage returns.
-/

namespace ClassCli

namespace Text

/-- A text and the same text with carriage returns in front of some of its line feeds. -/
inductive Returned : List Char → List Char → Prop
  | nil : Returned [] []
  | cons (c : Char) {s s' : List Char} : Returned s s' → Returned (c :: s) (c :: s')
  | feed {s s' : List Char} : Returned s s' → Returned ('\n' :: s) ('\r' :: '\n' :: s')

namespace Returned

variable {s s' t t' : List Char}

theorem refl : ∀ s, Returned s s
  | [] => .nil
  | c :: s => .cons c (refl s)

theorem append (h : Returned s s') (ht : Returned t t') : Returned (s ++ t) (s' ++ t') := by
  induction h with
  | nil => exact ht
  | cons c _ ih => exact .cons c ih
  | feed _ ih => exact .feed ih

theorem withReturns : ∀ s, Returned s (withReturns s)
  | [] => .nil
  | c :: s => by
    by_cases hc : c = '\n'
    · rw [hc, withReturns_feed]
      exact .feed (withReturns s)
    · rw [withReturns_cons hc]
      exact .cons c (withReturns s)

end Returned

end Text

namespace Outline.StringLiteral

open Text (NoEnds Returned afterStart asciiLower beforeEnd cut withReturns withReturns_cons withReturns_feed)

/-! ## Literals -/

/-- What stands between the quotes of a literal with a value, and whether it is taken as it stands. -/
def written? (s : List Char) : Option (Bool × List Char) :=
  let letters := asciiLower (cut isQuote s).1
  let body := (cut isQuote s).2
  if body.isEmpty || letters.any (fun c => c == 'f' || c == 'b') then none
  else (delimited? body).map fun text => (letters.any (· == 'r'), text)

theorem valueOf?_eq (s : List Char) : valueOf? s = (written? s).map fun (raw, text) => resolve raw text := by
  unfold valueOf? written?
  dsimp only
  split
  · rfl
  · rw [Option.map_map]
    rfl

theorem noEnds_delimiters : ∀ quotes ∈ delimiters, NoEnds quotes := by decide

theorem delimited?_withReturns (s : List Char) :
    delimited? (withReturns s) = (delimited? s).map withReturns := by
  unfold delimited?
  have h := noEnds_delimiters
  generalize delimiters = all at h
  induction all with
  | nil => rfl
  | cons quotes more ih =>
    rw [List.forall_mem_cons] at h
    have hquotes : (afterStart quotes (withReturns s)).bind (beforeEnd quotes)
        = ((afterStart quotes s).bind (beforeEnd quotes)).map withReturns := by
      rw [Text.afterStart_withReturns h.1]
      cases afterStart quotes s with
      | none => rfl
      | some after => exact Text.beforeEnd_withReturns h.1 after
    rw [List.findSome?_cons, List.findSome?_cons, hquotes]
    cases (afterStart quotes s).bind (beforeEnd quotes) with
    | none => exact ih h.2
    | some text => rfl

theorem any_asciiLower_withReturns {test : Char → Bool} (h : test '\r' = test '\n') (s : List Char) :
    (asciiLower (withReturns s)).any test = (asciiLower s).any test := by
  have hlower : (test ∘ Char.toLower) '\r' = (test ∘ Char.toLower) '\n' := h
  rw [asciiLower, asciiLower, List.any_map, List.any_map, Text.any_withReturns hlower]

/-- **A literal with carriage returns** has them between the quotes. -/
theorem written?_withReturns (s : List Char) :
    written? (withReturns s) = (written? s).map fun (raw, text) => (raw, withReturns text) := by
  have hcut : cut isQuote (withReturns s) = (withReturns (cut isQuote s).1, withReturns (cut isQuote s).2) := by
    rw [cut, Text.takeWhile_withReturns rfl, Text.dropWhile_withReturns rfl]
    rfl
  unfold written?
  rw [hcut]
  dsimp only
  rw [Text.isEmpty_withReturns, any_asciiLower_withReturns rfl, any_asciiLower_withReturns rfl,
    delimited?_withReturns]
  split
  · rfl
  · rw [Option.map_map, Option.map_map]
    rfl

/-! ## Escapes -/

/-- Whether an escape of a text stands for a line feed; `escaped` says whether a backslash stands in front of
the text. -/
def escapesFeed : Bool → List Char → Bool
  | _, [] => false
  | true, c :: rest => c == '\n' || escapesFeed false rest
  | false, c :: rest => escapesFeed (c == '\\') rest

/-- Whether an escaped line feed is dropped from the value of a literal. -/
def joinsLines (literal : String) : Bool :=
  match written? literal.toList with
  | some (raw, text) => !raw && escapesFeed false text
  | none => false

/-- Line feeds that are written keep their carriage returns, and those that escapes stand for get none. -/
theorem returned_unescape : ∀ {s : List Char}, escapesFeed false s = false →
    Returned (unescape s) (unescape (withReturns s))
  | [], _ => .nil
  | c :: rest, h => by
    by_cases hback : c = '\\'
    · subst hback
      cases rest with
      | nil => exact .refl _
      | cons next after =>
        have hpair : (next == '\n' || escapesFeed false after) = false := h
        rw [Bool.or_eq_false_iff, beq_eq_false_iff_ne] at hpair
        rw [withReturns_cons (by decide), withReturns_cons hpair.1, unescape_escape, unescape_escape]
        exact (Returned.refl _).append (returned_unescape hpair.2)
    · have hrest : escapesFeed false rest = false := by
        rw [escapesFeed, beq_eq_false_iff_ne.mpr hback] at h
        exact h
      rw [unescape_plain hback]
      by_cases hc : c = '\n'
      · subst hc
        rw [withReturns_feed, unescape_plain (by decide), unescape_plain (by decide)]
        exact .feed (returned_unescape hrest)
      · rw [withReturns_cons hc, unescape_plain hback]
        exact .cons c (returned_unescape hrest)

/-! ## Values -/

/-- A literal and the same literal with a carriage return in front of every line feed. -/
def Written (literal literal' : String) : Prop := literal'.toList = withReturns literal.toList

variable {literal literal' : String} {parts parts' : List String}

theorem value?_eq (literal : String) :
    value? literal = (written? literal.toList).map fun (raw, text) => String.ofList (resolve raw text) := by
  rw [value?, valueOf?_eq, Option.map_map]
  rfl

/-- A literal has a value with carriage returns if it has one without. -/
theorem isSome_value? (h : Written literal literal') : (value? literal').isSome = (value? literal).isSome := by
  rw [value?_eq, value?_eq, h, written?_withReturns, Option.isSome_map, Option.isSome_map, Option.isSome_map]

theorem value?_returns (h : Written literal literal') (hjoins : joinsLines literal = false) :
    Option.Rel (fun v v' : String => Returned v.toList v'.toList) (value? literal) (value? literal') := by
  unfold joinsLines at hjoins
  rw [value?_eq, value?_eq, h, written?_withReturns]
  cases hwritten : written? literal.toList with
  | none => exact .none
  | some found =>
    obtain ⟨raw, text⟩ := found
    rw [hwritten] at hjoins
    refine .some ?_
    rw [String.toList_ofList, String.toList_ofList]
    cases raw with
    | true => exact .withReturns text
    | false => exact returned_unescape hjoins

theorem isSome_values?_cons (part : String) (parts : List String) :
    (values? (part :: parts)).isSome = ((value? part).isSome && (values? parts).isSome) := by
  rw [values?]
  cases value? part with
  | none => rfl
  | some v =>
    cases values? parts with
    | none => rfl
    | some vs => rfl

theorem isSome_values? (h : List.Forall₂ Written parts parts') :
    (values? parts').isSome = (values? parts).isSome := by
  induction h with
  | nil => rfl
  | cons hpart _ ih => rw [isSome_values?_cons, isSome_values?_cons, isSome_value? hpart, ih]

/-- **The value of literals with carriage returns** is their value, with carriage returns in front of line feeds
that are written in it. -/
theorem values?_returns (h : List.Forall₂ Written parts parts')
    (hjoins : ∀ part ∈ parts, joinsLines part = false) :
    Option.Rel (fun v v' : String => Returned v.toList v'.toList) (values? parts) (values? parts') := by
  induction h with
  | nil => exact .some .nil
  | @cons part part' parts parts' hpart _ ih =>
    rw [List.forall_mem_cons] at hjoins
    have hvalue := value?_returns hpart hjoins.1
    have hvalues := ih hjoins.2
    rw [values?, values?]
    generalize value? part = v, value? part' = v' at hvalue ⊢
    generalize values? parts = vs, values? parts' = vs' at hvalues ⊢
    cases hvalue with
    | none => exact .none
    | some hvalue =>
      cases hvalues with
      | none => exact .none
      | some hvalues =>
        refine .some ?_
        rw [String.toList_append, String.toList_append]
        exact hvalue.append hvalues

/-- Whether line ends in literals count: the literals have a value, and one of them holds a line feed. -/
def holdsFeed (parts : List String) : Bool :=
  (values? parts).isSome && parts.any (·.toList.contains '\n')

theorem eq_of_written (h : List.Forall₂ Written parts parts') (hflat : ∀ part ∈ parts, '\n' ∉ part.toList) :
    parts' = parts := by
  induction h with
  | nil => rfl
  | @cons part part' _ _ hpart _ ih =>
    rw [List.forall_mem_cons] at hflat
    have hsame : part'.toList = part.toList := hpart.trans (Text.withReturns_of_not_mem hflat.1)
    rw [String.toList_inj.mp hsame, ih hflat.2]

/-- **The value of literals on one line** stays as it is. -/
theorem values?_eq_of_written (h : List.Forall₂ Written parts parts') (hflat : holdsFeed parts = false) :
    values? parts' = values? parts := by
  cases hvalues : values? parts with
  | none =>
    have hsome := isSome_values? h
    rw [hvalues, Option.isSome_none, Option.isSome_eq_false_iff, Option.isNone_iff_eq_none] at hsome
    exact hsome
  | some v =>
    rw [holdsFeed, hvalues, Option.isSome_some, Bool.true_and, List.any_eq_false] at hflat
    rw [eq_of_written h fun part hpart hmem => hflat part hpart (List.contains_iff_mem.mpr hmem), hvalues]

end Outline.StringLiteral

end ClassCli
