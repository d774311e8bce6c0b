import ClassCli.Proofs.Code.Lookup
import ClassCli.Proofs.Code.Nesting
import ClassCli.Proofs.Text.Letters

/-!
# What functions assign and call

A function makes a name its own by assigning to it anywhere in its suite. Here the assignments and the calls
of a function are read off its lines, and lines of the most common shapes are read back: words in lower case
to which something is assigned, and calls whose results are.

* **`assignedNames`**, **`callsName`** — what is read.
* **`Performs`** — the effects of the lines of a function: what each of them assigns to and calls.
* **`does_assignedCall`** — a line that assigns the result of a call.
* **`isWord_lower`** — the lower-case form of a word is a word.
-/

namespace ClassCli.Code

open Text (lower lowerChar lowerFrom lowercaseRuns lowercaseShift)

/-! ## Words in lower case -/

/-- The lower-case forms of a run of characters are beyond ASCII, or there is only one and it is a `k`. -/
def WordRun (run : Nat × Nat × Nat × Int) : Prop :=
  (128 : Int) ≤ run.1 + run.2.2.2 ∨ run.1 = run.2.1 ∧ (run.1 : Int) + run.2.2.2 = 107

theorem lowercaseRuns_word : ∀ run ∈ lowercaseRuns, WordRun run := by
  unfold WordRun
  decide +kernel

theorem lowercaseShift_word {runs : List (Nat × Nat × Nat × Int)} (h : ∀ run ∈ runs, WordRun run) {n : Nat}
    {shift : Int} (hs : lowercaseShift runs n = some shift) :
    128 ≤ (n : Int) + shift ∨ (n : Int) + shift = 107 := by
  obtain ⟨run, hrun, ⟨hfirst, hlast, -⟩, rfl⟩ := Text.exists_run_of_lowercaseShift hs
  rcases h run hrun with hlarge | ⟨hone, hk⟩
  · omega
  · omega

theorem isNameChar_lowerChar {c : Char} (h : isNameChar c = true) : isNameChar (lowerChar c) = true := by
  have hsmall : ∀ n < 128, isNameChar (Char.ofNat n) = true → isNameChar (Char.ofNat n).toLower = true := by
    decide +kernel
  unfold lowerChar
  split
  · rename_i hc
    have hlower := hsmall c.toNat hc
    rw [Char.ofNat_toNat] at hlower
    exact hlower h
  · split
    · rename_i shift hshift
      have hvalid := (Text.lowercaseShift_safe Text.lowercaseRuns_safe hshift).2
      have hnat : (Char.ofNat ((c.toNat : Int) + shift).toNat).toNat = ((c.toNat : Int) + shift).toNat := by
        rw [Char.ofNat, dif_pos hvalid]
        rfl
      rcases lowercaseShift_word lowercaseRuns_word hshift with hlarge | hk
      · have hbeyond : 128 ≤ (Char.ofNat ((c.toNat : Int) + shift).toNat).toNat := by
          rw [hnat]
          omega
        rw [isNameChar, decide_eq_true hbeyond, Bool.or_true]
      · rw [hk]
        decide
    · exact h

/-- **The lower-case form of a word is a word.** -/
theorem isWord_lower {text : List Char} (h : IsWord text) : IsWord (lower text) := by
  have hfrom (before : List Char) : IsWord (lowerFrom before text) := by
    induction text generalizing before with
    | nil => exact fun c hc => absurd hc List.not_mem_nil
    | cons c rest ih =>
      have hrest : IsWord rest := fun other ho => h other (List.mem_cons_of_mem c ho)
      rw [lowerFrom]
      refine IsWord.append ?_ (ih hrest _)
      -- a few letters have forms that depend on their neighbours, or more than one character
      split
      · decide
      · split
        · split
          · decide
          · decide
        · intro other ho
          rw [List.mem_singleton.mp ho]
          exact isNameChar_lowerChar (h c List.mem_cons_self)
  exact hfrom []

/-! ## Reading -/

namespace Statement

mutual

/-- The texts of a statement and of everything that belongs to it. -/
def texts : Statement → List String
  | node text suite => text :: textsAll suite

/-- The texts of statements and of everything that belongs to them. -/
def textsAll : List Statement → List String
  | [] => []
  | tree :: rest => texts tree ++ textsAll rest

end

theorem mem_textsAll {trees : List Statement} {text : String} :
    text ∈ textsAll trees ↔ ∃ tree ∈ trees, text ∈ tree.texts := by
  induction trees with
  | nil => simp [textsAll]
  | cons tree rest ih => rw [textsAll, List.mem_append, ih, List.exists_mem_cons_iff]

theorem textsAll_leaves (texts : List String) : textsAll (texts.map leaf) = texts := by
  induction texts with
  | nil => rfl
  | cons text rest ih =>
    rw [List.map_cons, textsAll, ih, leaf, Statement.texts, textsAll, List.singleton_append]

end Statement

/-- The name that a line assigns to. -/
def assigned? (text : String) : Option String :=
  match tokens text with
  | .name name :: .symbol '=' :: rest => if rest.head? = some (.symbol '=') then none else some name
  | _ => none

/-- The names that a function assigns to. -/
def assignedNames (function : Statement) : List String :=
  (Statement.textsAll function.suite).filterMap assigned?

/-- Whether a function calls a name. -/
def callsName (function : Statement) (name : String) : Bool :=
  (Statement.textsAll function.suite).any fun text => calls name (tokens text)

/-! ## What lines do -/

/-- The name that a line assigns to and the one that it calls, where there are no more. -/
structure Effect where
  target : Option String
  callee : Option String
  deriving DecidableEq, Repr, Inhabited

namespace Effect

/-- Neither assigns nor calls. -/
def nothing : Effect := ⟨none, none⟩

/-- Assigns something that comes of no call. -/
def assigns (name : String) : Effect := ⟨some name, none⟩

/-- Assigns the result of a call. -/
def binds (name function : String) : Effect := ⟨some name, some function⟩

end Effect

/-- A line has an effect. -/
structure Does (text : String) (effect : Effect) : Prop where
  assigned : assigned? text = effect.target
  calls : ∀ name, Code.calls name (tokens text) = true ↔ effect.callee = some name

/-- The lines of a function have certain effects, one after the other. -/
def Performs (function : Statement) (effects : List Effect) : Prop :=
  List.Forall₂ Does (Statement.textsAll function.suite) effects

namespace Performs

variable {function : Statement} {effects : List Effect} (h : Performs function effects)
include h

theorem assignedNames_eq : assignedNames function = effects.filterMap (·.target) := by
  rw [assignedNames, List.filterMap_eq_flatMap_toList, List.filterMap_eq_flatMap_toList]
  unfold Performs at h
  generalize Statement.textsAll function.suite = texts at h ⊢
  induction h with
  | nil => rfl
  | cons hfirst _ ih => rw [List.flatMap_cons, List.flatMap_cons, hfirst.assigned, ih]

theorem callsName_iff {name : String} :
    callsName function name = true ↔ name ∈ effects.filterMap (·.callee) := by
  rw [callsName, List.mem_filterMap]
  unfold Performs at h
  generalize Statement.textsAll function.suite = texts at h ⊢
  induction h with
  | nil => simp
  | cons hfirst _ ih =>
    rw [List.any_cons, Bool.or_eq_true, hfirst.calls, ih, List.exists_mem_cons_iff]

end Performs

theorem forall₂_flatMap {α β γ : Type} {R : β → γ → Prop} {f : α → List β} {g : α → List γ} {items : List α}
    (h : ∀ item ∈ items, List.Forall₂ R (f item) (g item)) :
    List.Forall₂ R (items.flatMap f) (items.flatMap g) := by
  rw [List.flatMap_def, List.flatMap_def]
  refine List.rel_flatten ?_
  rw [List.forall₂_map_left_iff, List.forall₂_map_right_iff, List.forall₂_same]
  exact h

/-- A line without parentheses calls nothing. -/
theorem does_of_not_mem {text : String} {target : Option String} (ht : assigned? text = target)
    (h : .symbol '(' ∉ tokens text) : Does text ⟨target, none⟩ := by
  refine ⟨ht, ?_⟩
  intro name
  rw [calls, callsBehind_eq_false name _ h]
  simp

/-! ## Lines that assign -/

/-- A text that is read as one name. -/
def IsName (name : String) : Prop := name.toList ≠ [] ∧ IsWord name.toList

instance (name : String) : Decidable (IsName name) := inferInstanceAs (Decidable (_ ∧ _))

namespace IsName

theorem append {front back : String} (hf : IsWord front.toList) (hb : IsName back) :
    IsName (front ++ back) := by
  rw [IsName, String.toList_append]
  exact ⟨List.append_ne_nil_of_right_ne_nil _ hb.1, hf.append hb.2⟩

theorem reads {name : String} (h : IsName name) : Reads name.toList [.name name] := by
  have hword := Reads.word h.1 h.2
  rwa [String.ofList_toList] at hword

end IsName

theorem tokens_assign {name : String} (hname : IsName name) (value : String) :
    tokens (name ++ (" = " ++ value)) = .name name :: .symbol '=' :: tokens value := by
  have hequals : " = ".toList = [' ', '=', ' '] := rfl
  have hrest : (" = " ++ value).toList = ' ' :: '=' :: ' ' :: value.toList := by
    rw [String.toList_append, hequals]
    rfl
  rw [tokens, String.toList_append, hrest, scan_word hname.1 hname.2 (endsName_cons (by decide) _),
    String.ofList_toList]
  rfl

section Assign

variable {text name : String} {rest : List Token}

/-- A line that assigns what a method returns calls nothing by its name alone. -/
theorem does_methodCall {receiver method : String}
    (h : tokens text = .name name :: .symbol '=' :: .name receiver :: .symbol '.' :: .name method
      :: .symbol '(' :: rest)
    (hr : .symbol '(' ∉ rest) : Does text (.assigns name) := by
  refine ⟨by simp [assigned?, h, Effect.assigns], ?_⟩
  intro called
  have hrest := callsBehind_eq_false called rest hr
  rw [h, calls]
  simp [callsBehind, hrest, Effect.assigns]

/-- A line that assigns what a function returns. -/
theorem does_functionCall {function : String}
    (h : tokens text = .name name :: .symbol '=' :: .name function :: .symbol '(' :: rest)
    (hr : .symbol '(' ∉ rest) : Does text (.binds name function) := by
  refine ⟨by simp [assigned?, h, Effect.binds], ?_⟩
  intro called
  have hrest := callsBehind_eq_false called rest hr
  rw [h, calls, callsBehind_name_symbol, callsBehind_name_symbol]
  simp [hrest, Effect.binds]

end Assign

/-- The line that calls a function with a variable and assigns the result. -/
def assignedCall (name function argument : String) : String :=
  name ++ (" = " ++ (function ++ ("(" ++ (argument ++ ")"))))

/-- **A line that assigns the result of a call.** -/
theorem does_assignedCall {name function argument : String} (hname : IsName name)
    (hfunction : IsName function) (hargument : IsName argument) :
    Does (assignedCall name function argument) (.binds name function) := by
  have hclose : Reads ")".toList [.symbol ')'] := Reads.plain (by decide)
  have hinner := hargument.reads.append hclose (endsName_cons (by decide) _)
  have hopen := Reads.symbol (c := '(') (by decide) (by decide) (by decide) hinner
  have hall := hfunction.reads.append hopen (endsName_cons (by decide) _)
  have hbracket : "(".toList = ['('] := rfl
  have hvalue : tokens (function ++ ("(" ++ (argument ++ ")")))
      = [.name function, .symbol '(', .name argument, .symbol ')'] := by
    refine Reads.tokens_eq ?_
    simpa only [String.toList_append, hbracket, List.cons_append, List.nil_append] using hall
  have htokens := tokens_assign hname (function ++ ("(" ++ (argument ++ ")")))
  rw [hvalue] at htokens
  exact does_functionCall htokens (by simp)

/-- A quoted text behind a text without quotes and in front of more. -/
theorem reads_quoted (front : String) (hfront : '\x27' ∉ front.toList) (text : String) {back : String}
    {line : List Token} (hback : Reads back.toList line) (hend : EndsName back.toList) :
    Reads (front ++ (quote text ++ back)).toList (tokens front ++ .string text :: line) := by
  have hquoted := (Reads.quote text).append hback hend
  have hall := (Reads.plain hfront).append hquoted ((endsName_quote text).append hend)
  simpa only [String.toList_append, List.cons_append, List.nil_append, tokens] using hall

end ClassCli.Code
