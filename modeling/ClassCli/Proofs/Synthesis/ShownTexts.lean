import Mathlib.Data.List.Infix
import ClassCli.Proofs.Code.StringReading
import ClassCli.Proofs.Outline.StringValues
import ClassCli.Proofs.Synthesis.EntryFile
import ClassCli.Synthesis.Naming

/-!
# Quoted texts, their values and what is shown of them

Generated code shows texts as string literals, and source code is read for the values of such literals. What is
quoted for generated code has the same value when it is read as source code, whatever runs of backslashes and
quotes it holds. In a help text every percent sign is written twice, and taking the signs in pairs gives the text
back.

The description of the program is written into `create_parser` as a help text. A description is expanded at
percent signs only if it asks for the name of the program; otherwise it is shown as it is, and then the doubled
signs stay doubled.

* **`Expands`**, **`halved?`** — percent signs that are expanded, and taken in pairs.
* **`quoted_texts_come_back`** — quoted texts, help texts and what follows for different ones.
* **`Announces`** — what a program is to say about itself.
* **`shownDescription?`** — the description that the parser of a generated file shows.
* **`shownDescription?_entryPoint_iff`** — exactly when what is to be said is shown.
-/

namespace ClassCli.Synthesis

open Interface (Collection Module)
open Code (Line Statement quote)
open Code.StringReading (CharNames denote? denote?_quote points)
open Outline.StringLiteral (value? value?_quote)

/-! ## Percent signs -/

section Percents

variable {α : Type} [DecidableEq α] {sign : α}

/-- A text with a sign written twice wherever it stands. -/
def doubled (sign : α) (s : List α) : List α :=
  s.flatMap fun c => if c = sign then [sign, sign] else [c]

/-- How texts are expanded at a sign: two of them stand for one, and every other character stands for itself. What
a single sign stands for, with the characters behind it, is left open. -/
structure Expands (sign : α) (expand : List α → Option (List α)) : Prop where
  nil : expand [] = some []
  pair : ∀ rest, expand (sign :: sign :: rest) = (expand rest).map (sign :: ·)
  plain : ∀ c rest, c ≠ sign → expand (c :: rest) = (expand rest).map (c :: ·)

theorem doubled_cons_sign (s : List α) : doubled sign (sign :: s) = sign :: sign :: doubled sign s := by
  rw [doubled, List.flatMap_cons, if_pos rfl]
  rfl

theorem doubled_cons_of_ne {c : α} (h : c ≠ sign) (s : List α) : doubled sign (c :: s) = c :: doubled sign s := by
  rw [doubled, List.flatMap_cons, if_neg h]
  rfl

/-- **Expanding undoes doubling.** -/
theorem Expands.doubled {expand : List α → Option (List α)} (h : Expands sign expand) (s : List α) :
    expand (doubled sign s) = some s := by
  induction s with
  | nil => exact h.nil
  | cons c rest ih =>
    by_cases hc : c = sign
    · rw [hc, doubled_cons_sign, h.pair, ih, Option.map_some]
    · rw [doubled_cons_of_ne hc, h.plain _ _ hc, ih, Option.map_some]

/-- Makes one sign of every two that stand next to each other. A text that keeps a single one has no such form. -/
def halved? (sign : α) : List α → Option (List α)
  | [] => some []
  | [c] => if c = sign then none else some [c]
  | c :: next :: rest =>
    if c = sign then if next = sign then (halved? sign rest).map (sign :: ·) else none
    else (halved? sign (next :: rest)).map (c :: ·)

theorem expands_halved? : Expands sign (halved? sign) where
  nil := rfl
  pair rest := by rw [halved?, if_pos rfl, if_pos rfl]
  plain c rest hc := by
    cases rest with
    | nil =>
      rw [halved?, halved?, if_neg hc]
      rfl
    | cons next rest => rw [halved?, if_neg hc]

end Percents

theorem toList_doublePercents (text : String) : (doublePercents text).toList = doubled '%' text.toList :=
  String.toList_ofList

theorem halved?_doublePercents (text : String) : halved? '%' (doublePercents text).toList = some text.toList := by
  rw [toList_doublePercents, expands_halved?.doubled]

/-! ## Different texts -/

theorem quote_inj {s t : String} : quote s = quote t ↔ s = t := by
  constructor
  · intro h
    have hvalue := value?_quote s
    rw [h, value?_quote] at hvalue
    exact (Option.some.inj hvalue).symm
  · exact congrArg quote

/-- **Quoted texts come back.** The value of a quoted text is the text. The value of a quoted help text becomes the
text when its percent signs are taken in pairs, and no single one is left over. So different texts are quoted
differently, as are different help texts. -/
theorem quoted_texts_come_back :
    (∀ text, value? (quote text) = some text)
      ∧ (∀ text, ∃ value, value? (help text) = some value ∧ halved? '%' value.toList = some text.toList)
      ∧ (∀ s t, quote s = quote t ↔ s = t)
      ∧ ∀ s t, help s = help t ↔ s = t := by
  refine ⟨value?_quote, fun text => ⟨_, value?_quote _, halved?_doublePercents text⟩,
    fun _ _ => quote_inj, fun s t => ⟨fun h => ?_, congrArg help⟩⟩
  have hdoubled := congrArg (fun text : String => halved? '%' text.toList) (quote_inj.mp h)
  simp only [halved?_doublePercents] at hdoubled
  exact String.toList_inj.mp (Option.some.inj hdoubled)

example : halved? '%' "50%%% of".toList = none := by decide

/-! ## Doubled signs -/

section Doubled

variable {α : Type} [DecidableEq α] {sign : α} {s : List α}

theorem mem_doubled {c : α} : c ∈ doubled sign s ↔ c ∈ s := by
  induction s with
  | nil => rfl
  | cons d rest ih =>
    by_cases hd : d = sign
    · rw [hd, doubled_cons_sign, List.mem_cons, List.mem_cons, List.mem_cons, ih, or_self_left]
    · rw [doubled_cons_of_ne hd, List.mem_cons, List.mem_cons, ih]

/-- Every sign makes the text one character longer. -/
theorem length_doubled (sign : α) (s : List α) : (doubled sign s).length = s.length + s.count sign := by
  induction s with
  | nil => rfl
  | cons c rest ih =>
    by_cases hc : c = sign
    · rw [hc, doubled_cons_sign, List.count_cons_self, List.length_cons, List.length_cons, List.length_cons, ih]
      omega
    · rw [doubled_cons_of_ne hc, List.count_cons_of_ne hc, List.length_cons, List.length_cons, ih]
      omega

theorem doubled_of_notMem (h : sign ∉ s) : doubled sign s = s := by
  induction s with
  | nil => rfl
  | cons c rest ih =>
    rw [doubled_cons_of_ne (List.ne_of_not_mem_cons h).symm, ih (List.not_mem_of_not_mem_cons h)]

theorem doubled_eq_self_iff : doubled sign s = s ↔ sign ∉ s := by
  constructor
  · intro h hmem
    have hlength := length_doubled sign s
    have hcount := List.count_pos_iff.mpr hmem
    rw [h] at hlength
    omega
  · exact doubled_of_notMem

theorem prefix_doubled_iff {wanted : List α} (h : sign ∉ wanted) :
    wanted <+: doubled sign s ↔ wanted <+: s := by
  induction s generalizing wanted with
  | nil => rfl
  | cons c rest ih =>
    cases wanted with
    | nil => simp
    | cons w wanted =>
      have hw : w ≠ sign := (List.ne_of_not_mem_cons h).symm
      by_cases hc : c = sign
      · subst hc
        rw [doubled_cons_sign]
        simp [hw]
      · rw [doubled_cons_of_ne hc, List.cons_prefix_cons, List.cons_prefix_cons,
          ih (List.not_mem_of_not_mem_cons h)]

/-- **What opens with a sign and holds no other one stands in a text exactly if it stands in the doubled text**:
there it opens with the second of two signs. -/
theorem infix_doubled_iff {c : α} {wanted : List α} (h : sign ∉ c :: wanted) :
    sign :: c :: wanted <:+: doubled sign s ↔ sign :: c :: wanted <:+: s := by
  have hc : c ≠ sign := (List.ne_of_not_mem_cons h).symm
  induction s with
  | nil => rfl
  | cons d rest ih =>
    rw [List.infix_cons_iff]
    by_cases hd : d = sign
    · subst hd
      rw [doubled_cons_sign, List.infix_cons_iff, List.infix_cons_iff]
      simp [hc, prefix_doubled_iff h, ih]
    · rw [doubled_cons_of_ne hd, List.infix_cons_iff]
      simp [Ne.symm hd, ih]

end Doubled

/-! ## Announcing -/

/-- What a program is to say about itself: the help text of its only module, or a sentence with the names of its
modules. -/
inductive Announces : List Module → String → Prop
  | nothing : Announces [] ""
  | only (m : Module) : Announces [m] m.help
  | several (modules : List Module) (h : 2 ≤ modules.length) :
    Announces modules ("Command-line interface for python modules: " ++ Text.joinStrings ", " (modules.map (·.name)))

theorem Announces.description_eq {collection : Collection} {text : String}
    (h : Announces collection.modules text) : description collection = text := by
  obtain ⟨modules⟩ := collection
  cases h with
  | nothing => rfl
  | only m => rfl
  | several _ hlength =>
    match modules, hlength with
    | _ :: _ :: _, _ => rfl

/-! ## Showing -/

/-- What opens the statement that makes the parser. -/
def parserOpening : List Char := "parser = ArgumentParser(description=".toList

/-- The literal that a statement makes a parser with, if it makes one. -/
def descriptionLiteral? (statement : Statement) : Option String :=
  ((Text.afterStart parserOpening statement.text.toList).bind (Text.beforeEnd [')'])).map String.ofList

/-- The name of the program as a description asks for it. -/
def programSign : List Char := "%(prog)".toList

/-- A description as the parser shows it: expanded if it asks for the name of the program, and as it is
otherwise. -/
def displayed? (expand : List Nat → Option (List Nat)) (description : List Nat) : Option (List Nat) :=
  if points programSign <:+: description then expand description else some description

/-- The description that the parser shows that is built by `create_parser` of a file. -/
def shownDescription? (names : CharNames) (expand : List Nat → Option (List Nat)) (lines : List Line) :
    Option (List Nat) :=
  (((Code.body? "create_parser" lines).bind (·.findSome? descriptionLiteral?)).bind
    fun literal => denote? names [literal]).bind (displayed? expand)

/-! ## What is shown -/

section Shown

variable {names : CharNames} {expand : List Nat → Option (List Nat)} {text : String}

/-- **The body of `create_parser`** is read off the entry point. -/
theorem body?_createParser (surroundings : Surroundings) (parserFile : String) (collection : Collection) :
    Code.body? "create_parser" (entryPoint surroundings parserFile collection).value.lines
      = some (createTree collection).suite := by
  have hguard : Code.opens "create_parser" guardTree.text = false := by decide +kernel
  have hmain : Code.opens "create_parser" mainTree.text = false := by decide +kernel
  have hcreate : Code.opens "create_parser" (createTree collection).text = true := by
    rw [createTree, Statement.text]
    decide +kernel
  rw [Code.body?, nest_entryPoint]
  simp [entryTrees, hguard, hmain, hcreate]

theorem descriptionLiteral?_help (text : String) :
    descriptionLiteral? (.leaf ("parser = ArgumentParser(description=" ++ help text ++ ")"))
      = some (help text) := by
  have htext : ("parser = ArgumentParser(description=" ++ help text ++ ")").toList
      = parserOpening ++ ((help text).toList ++ [')']) := by
    rw [String.toList_append, String.toList_append, List.append_assoc]
    rfl
  rw [descriptionLiteral?, Statement.leaf, Statement.text, htext, Text.afterStart_append, Option.bind_some,
    Text.beforeEnd_append, Option.map_some, String.ofList_toList]

/-- A doubled text denotes the code points of the text with the code point of the sign doubled. -/
theorem points_doubled (c : Char) (s : List Char) : points (doubled c s) = doubled c.toNat (points s) := by
  induction s with
  | nil => rfl
  | cons d rest ih =>
    rw [points, points, List.map_cons]
    by_cases hd : d = c
    · rw [hd, doubled_cons_sign, doubled_cons_sign, ← points, ← points, ← ih]
      rfl
    · have hpoint : d.toNat ≠ c.toNat := fun h => hd (Char.toNat_inj.mp h)
      rw [doubled_cons_of_ne hd, doubled_cons_of_ne hpoint, ← points, ← points, ← ih]
      rfl

theorem mem_points_iff {c : Char} {s : List Char} : c.toNat ∈ points s ↔ c ∈ s := by
  rw [points, List.mem_map]
  constructor
  · rintro ⟨d, hd, h⟩
    rwa [← Char.toNat_inj.mp h]
  · exact fun h => ⟨c, h, rfl⟩

theorem points_infix_iff {s t : List Char} : points s <:+: points t ↔ s <:+: t := by
  constructor
  · intro h
    obtain ⟨part, hpart, heq⟩ := List.infix_map_iff.mp h
    rwa [(List.map_inj_right fun _ _ => Char.toNat_inj.mp).mp heq]
  · intro h
    exact h.map Char.toNat

/-- **What the parser shows**: the text if it asks for the name of the program, and otherwise the text with its
percent signs doubled. Nothing is shown if Python cannot read the file. -/
theorem shownDescription?_entryPoint (hexpand : Expands '%'.toNat expand) (surroundings : Surroundings)
    (parserFile : String) {collection : Collection} (htext : Announces collection.modules text) :
    shownDescription? names expand (entryPoint surroundings parserFile collection).value.lines
      = if '\x00' ∈ text.toList then none
        else some (if programSign <:+: text.toList then points text.toList
          else doubled '%'.toNat (points text.toList)) := by
  have hliteral : (createTree collection).suite.findSome? descriptionLiteral? = some (help text) := by
    rw [createTree, Statement.suite, htext.description_eq, List.findSome?_cons, descriptionLiteral?_help]
  have hnull : '\x00' ∈ doubled '%' text.toList ↔ '\x00' ∈ text.toList := mem_doubled
  have hsign : points programSign <:+: doubled '%'.toNat (points text.toList) ↔ programSign <:+: text.toList := by
    have hopens : points programSign = '%'.toNat :: '('.toNat :: points "prog)".toList := by decide
    rw [hopens, infix_doubled_iff (by decide), ← hopens]
    exact points_infix_iff
  rw [shownDescription?, body?_createParser, Option.bind_some, hliteral, Option.bind_some, help, denote?_quote,
    toList_doublePercents]
  simp only [hnull]
  split
  · rfl
  · rw [Option.bind_some, displayed?, points_doubled]
    simp only [hsign]
    split
    · exact hexpand.doubled _
    · rfl

/-- **Exactly when what is to be said is shown**: Python can read the file, and the text holds no percent sign
unless it asks for the name of the program. -/
theorem shownDescription?_entryPoint_iff (hexpand : Expands '%'.toNat expand) (surroundings : Surroundings)
    (parserFile : String) {collection : Collection} (htext : Announces collection.modules text) :
    shownDescription? names expand (entryPoint surroundings parserFile collection).value.lines
        = some (points text.toList)
      ↔ '\x00' ∉ text.toList ∧ ('%' ∉ text.toList ∨ programSign <:+: text.toList) := by
  rw [shownDescription?_entryPoint hexpand surroundings parserFile htext]
  by_cases hnull : '\x00' ∈ text.toList
  · simp [hnull]
  by_cases hasks : programSign <:+: text.toList
  · simp [hnull, hasks]
  · rw [if_neg hnull, if_neg hasks, Option.some.injEq, doubled_eq_self_iff, mem_points_iff]
    simp [hnull, hasks]

end Shown

/-- A program whose description speaks of a percentage. -/
def sampler : Collection :=
  ⟨[{ name := "Sampler", help := "Keeps 10% of the rows.", location := "sampler.py" }]⟩

/-- A program whose description asks for its name. -/
def carefulRunner : Collection :=
  ⟨[{ name := "Runner", help := "Run %(prog)s with 100% care.", location := "runner.py" }]⟩

/-- A description that asks for the name of the program is shown as it is written. -/
theorem shownDescription?_entryPoint_iff_runner :
    shownDescription? (fun _ => none) (halved? '%'.toNat)
        (entryPoint ⟨"/project", "argsmith"⟩ "cli/utils/parser.py" carefulRunner).value.lines
      = some (points "Run %(prog)s with 100% care.".toList) :=
  (shownDescription?_entryPoint_iff expands_halved? ⟨"/project", "argsmith"⟩ "cli/utils/parser.py"
    (.only _)).mpr ⟨by decide, Or.inr ⟨"Run ".toList, "s with 100% care.".toList, by decide⟩⟩

/-- A description with a percent sign is not shown as it is written: two signs are shown. -/
theorem description_of_sampler_doubled :
    Announces sampler.modules "Keeps 10% of the rows." ∧
      ∀ names expand, Expands '%'.toNat expand →
        shownDescription? names expand (entryPoint ⟨"/project", "argsmith"⟩ "cli/utils/parser.py" sampler).value.lines
            = some (points "Keeps 10%% of the rows.".toList)
          ∧ points "Keeps 10%% of the rows.".toList ≠ points "Keeps 10% of the rows.".toList := by
  refine ⟨.only _, fun names expand hexpand => ⟨?_, by decide⟩⟩
  have hannounces : Announces sampler.modules "Keeps 10% of the rows." := .only _
  have hnull : '\x00' ∉ "Keeps 10% of the rows.".toList := by decide
  have hasks : ¬programSign <:+: "Keeps 10% of the rows.".toList := by decide +kernel
  rw [shownDescription?_entryPoint hexpand _ _ hannounces, if_neg hnull, if_neg hasks]
  rfl

end ClassCli.Synthesis
