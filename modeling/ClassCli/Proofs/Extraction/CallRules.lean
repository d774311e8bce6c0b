import Mathlib.Data.List.DropRight
import ClassCli.Proofs.Extraction.Signature

/-!
# What a method accepts

By the rules of Python the object on which a method is called takes the first positional parameter, every
keyword has to name a parameter that may be passed by keyword, no parameter may be bound twice, and all
parameters without a default have to be bound. A name with two underscores in front is another one outside
of its class.

* **`Accepts`** — the call rules.
* **`accepts_iff`** — which signatures accept a keyword for each parameter that a caller passes.
-/

namespace ClassCli

namespace Source

/-! ## Private names -/

/-- Whether a name is private: it starts with two underscores and does not end with two. -/
def isPrivate (name : List Char) : Bool := ['_', '_'].isPrefixOf name && !(['_', '_'].isSuffixOf name)

/-- What a name of a class body stands for: a private name gets the name of the class in front of it,
without the underscores that the class starts with, unless there is nothing else in its name. -/
def innerName (className name : String) : String :=
  match className.toList.dropWhile (· == '_') with
  | [] => name
  | first :: rest =>
    if isPrivate name.toList then String.ofList ('_' :: first :: rest ++ name.toList) else name

/-- What a name stands for is not private any more. -/
theorem innerName_innerName (className name : String) :
    innerName className (innerName className name) = innerName className name := by
  unfold innerName
  cases hstem : className.toList.dropWhile (· == '_') with
  | nil => rfl
  | cons first rest =>
    have hfirst : (first == '_') = false := by
      have hhead := List.head?_dropWhile_not (· == '_') className.toList
      rw [hstem] at hhead
      exact hhead
    cases hprivate : isPrivate name.toList with
    | false => simp [hprivate]
    | true =>
      have hinner : isPrivate ('_' :: first :: rest ++ name.toList) = false := by
        simp [isPrivate, List.isPrefixOf, BEq.comm, hfirst]
      simp only [if_true, String.toList_ofList, hinner, Bool.false_eq_true, if_false]

/-! ## The call rules -/

/-- Whether a parameter marks those in front of it as positional-only. -/
def Param.isSlash : Param → Bool
  | .slash => true
  | _ => false

/-- Whether a parameter takes whatever positional arguments are left. -/
def Param.takesRest : Param → Bool
  | .star .. => true
  | _ => false

/-- The named parameters left of a slash. -/
def leftOfSlash (params : List Param) : List NamedParam :=
  (params.rdropWhile (!·.isSlash)).filterMap Param.named?

/-- The named parameters that may be passed by keyword. -/
def byKeyword (params : List Param) : List NamedParam :=
  (params.rtakeWhile (!·.isSlash)).filterMap Param.named?

namespace Definition

variable (d : Definition)

/-- The named parameters. -/
def named : List NamedParam := d.params.filterMap Param.named?

/-- The parameter that the object takes. -/
def receiver? : Option NamedParam := if d.isStatic then none else (positional d.params).head?

/-- The object has a place among the parameters, or needs none. -/
def HasReceiver : Prop :=
  d.isStatic = true ∨ positional d.params ≠ [] ∨ d.params.any Param.takesRest = true

instance : Decidable d.HasReceiver := by
  unfold HasReceiver
  infer_instance

theorem named_eq_receiver_append : d.named = d.receiver?.toList ++ d.explicit := by
  have hall : d.named = positional d.params ++ keywordOnly d.params := by
    rw [positional, keywordOnly, ← List.filterMap_append, List.takeWhile_append_dropWhile]
    rfl
  rw [hall, receiver?, explicit]
  cases d.isStatic with
  | true => rfl
  | false =>
    cases positional d.params with
    | nil => rfl
    | cons first rest => rfl

theorem named_eq_left_append : d.named = leftOfSlash d.params ++ byKeyword d.params := by
  rw [leftOfSlash, byKeyword, ← List.filterMap_append, List.rdropWhile_append_rtakeWhile]
  rfl

end Definition

/-- The names that are bound when a method is called on an object with certain keywords. -/
def boundNames (className : String) (d : Definition) (keywords : List String) : List String :=
  d.receiver?.toList.map (innerName className ·.name) ++ keywords

/-- A method accepts to be called on an object with certain keywords. A keyword that only finds a place in a
parameter for whatever is left names no parameter. -/
structure Accepts (className : String) (d : Definition) (keywords : List String) : Prop where
  receiver : d.HasReceiver
  keyword : ∀ keyword ∈ keywords, ∃ p ∈ byKeyword d.params, innerName className p.name = keyword
  once : (boundNames className d keywords).Nodup
  bound : ∀ p ∈ d.named, p.default = none → innerName className p.name ∈ boundNames className d keywords

/-- All parameters but the receiver can be passed by their names. -/
structure TakesKeywords (className : String) (d : Definition) : Prop where
  receiver : d.HasReceiver
  left : ∀ p ∈ leftOfSlash d.params, p ∈ d.receiver?.toList
  kept : ∀ p ∈ d.explicit, innerName className p.name = p.name
  distinct : (d.named.map (innerName className ·.name)).Nodup

variable {className : String} {d : Definition}

/-- If the parameters keep their names, then keywords for all of them bind all parameters. -/
theorem boundNames_explicit (h : ∀ p ∈ d.explicit, innerName className p.name = p.name) :
    boundNames className d (d.explicit.map (·.name)) = d.named.map (innerName className ·.name) := by
  rw [boundNames, d.named_eq_receiver_append, List.map_append, List.map_congr_left h]

/-- A parameter that a keyword names keeps its name: it has no private one. -/
theorem Accepts.kept {keywords : List String} (h : Accepts className d keywords) :
    ∀ keyword ∈ keywords, innerName className keyword = keyword := by
  intro keyword hkeyword
  obtain ⟨p, -, rfl⟩ := h.keyword keyword hkeyword
  exact innerName_innerName className p.name

/-- In a list of items with different names, those in front have other names than those behind. -/
theorem ne_of_nodup_append {α β : Type} {f : α → β} {front back : List α}
    (h : ((front ++ back).map f).Nodup) {x y : α} (hx : x ∈ front) (hy : y ∈ back) : f x ≠ f y := by
  rw [List.map_append, List.nodup_append] at h
  exact h.2.2 _ (List.mem_map_of_mem hx) _ (List.mem_map_of_mem hy)

/-- **Which signatures accept a keyword for each parameter that a caller passes**: those with a place for the
object whose other parameters are not left of a slash and have different names that are not private. -/
theorem accepts_iff : Accepts className d (d.explicit.map (·.name)) ↔ TakesKeywords className d := by
  constructor
  · intro h
    have hkept : ∀ p ∈ d.explicit, innerName className p.name = p.name :=
      fun p hp => h.kept p.name (List.mem_map_of_mem hp)
    have hdistinct : (d.named.map (innerName className ·.name)).Nodup := by
      rw [← boundNames_explicit hkept]
      exact h.once
    refine ⟨h.receiver, ?_, hkept, hdistinct⟩
    intro p hleft
    have hnamed : p ∈ d.receiver?.toList ++ d.explicit := by
      rw [← d.named_eq_receiver_append, d.named_eq_left_append]
      exact List.mem_append_left _ hleft
    rcases List.mem_append.mp hnamed with hreceiver | hexplicit
    · exact hreceiver
    · -- the keyword of this parameter would name another one, to the right of the slash
      obtain ⟨q, hq, hsame⟩ := h.keyword p.name (List.mem_map_of_mem hexplicit)
      rw [d.named_eq_left_append] at hdistinct
      exact absurd ((hkept p hexplicit).trans hsame.symm) (ne_of_nodup_append hdistinct hleft hq)
  · intro h
    have hnames := boundNames_explicit h.kept
    refine ⟨h.receiver, ?_, hnames ▸ h.distinct, ?_⟩
    · intro keyword hkeyword
      obtain ⟨p, hexplicit, rfl⟩ := List.mem_map.mp hkeyword
      have hnamed : p ∈ leftOfSlash d.params ++ byKeyword d.params := by
        rw [← d.named_eq_left_append, d.named_eq_receiver_append]
        exact List.mem_append_right _ hexplicit
      rcases List.mem_append.mp hnamed with hleft | hright
      · have hdistinct := h.distinct
        rw [d.named_eq_receiver_append] at hdistinct
        exact absurd rfl (ne_of_nodup_append hdistinct (h.left p hleft) hexplicit)
      · exact ⟨p, hright, h.kept p hexplicit⟩
    · intro p hp _
      rw [hnames]
      exact List.mem_map_of_mem hp

/-! ## Spelling -/

/-- Whether a parameter is spelled as one of Python. -/
def Param.isSpelled : Param → Bool
  | .plain name .. => Text.isIdentifier name.toList
  | .tuple => false
  | _ => true

/-- The names in a signature are identifiers, and no parameter is a tuple. -/
structure Definition.Spelled (d : Definition) : Prop where
  name : Text.isIdentifier d.name.toList = true
  params : ∀ param ∈ d.params, param.isSpelled = true

theorem Definition.Spelled.named {d : Definition} (h : d.Spelled) :
    ∀ p ∈ d.named, Text.isIdentifier p.name.toList = true := by
  intro p hp
  obtain ⟨param, hparam, hnamed⟩ := List.mem_filterMap.mp hp
  have hspelled := h.params param hparam
  cases param with
  | plain name typeHint default =>
    cases hnamed
    exact hspelled
  | _ => cases hnamed

end Source

end ClassCli
