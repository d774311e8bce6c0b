import ClassCli.Proofs.Docstring.FlushEntries

/-!
# Entries with types

An entry may carry a type in round brackets behind its name. What is read is the name and the description, but
brackets are not counted: the entry is cut at its first colon, and of what stands in front of it each stretch in round
brackets is taken away up to the nearest closing one. So a type is taken away as a whole exactly if it holds neither
a colon nor a closing round bracket.

* **`closes`**, **`Balanced`** — brackets that are closed; **`Balanced.count_eq`**, **`Balanced.opened`** say how many
  there are and that each has been opened.
* **`withoutBrackets_bracket`**, **`surplus_withoutBrackets`** — what is taken away, and what stays.
* **`TypedItem`**, **`args_of_titled_typed`** — entries with types, and what is read from them.
* **`key_eq_name_iff`**, **`eq_name_of_key`** — the names under which entries are stored.
* **`get?_stored_eq_some_iff`** — types that are taken away as a whole.
-/

namespace ClassCli.Text

/-! ## Balanced brackets

A text is balanced if each of its round and square brackets is closed by one of its own kind, the innermost one
first. Such a text has as many opening brackets of a kind as closing ones, and the first closing bracket has an
opening one before it. -/

/-- The bracket that closes a bracket. -/
def closing? (c : Char) : Option Char :=
  if c = '(' then some ')' else if c = '[' then some ']' else none

/-- Whether a text closes the brackets that are open, and all of its own. `expected` holds the brackets that close
the open ones, the innermost first. -/
def closes : List Char → List Char → Bool
  | expected, [] => expected.isEmpty
  | expected, c :: rest =>
    match closing? c with
    | some close => closes (close :: expected) rest
    | none =>
      if c = ')' ∨ c = ']' then expected.head? == some c && closes expected.tail rest
      else closes expected rest

/-- A text whose round and square brackets are all closed. -/
def Balanced (s : List Char) : Prop := closes [] s = true

instance (s : List Char) : Decidable (Balanced s) := inferInstanceAs (Decidable (closes [] s = true))

section Closes

variable (expected rest : List Char)

@[simp] theorem closes_round : closes expected ('(' :: rest) = closes (')' :: expected) rest := rfl

@[simp] theorem closes_square : closes expected ('[' :: rest) = closes (']' :: expected) rest := rfl

@[simp] theorem closes_closing {c : Char} (h : c = ')' ∨ c = ']') :
    closes expected (c :: rest) = (expected.head? == some c && closes expected.tail rest) := by
  rcases h with rfl | rfl
  · rfl
  · rfl

theorem closes_other {c : Char} (hround : c ≠ '(') (hsquare : c ≠ '[') (h : ¬(c = ')' ∨ c = ']')) :
    closes expected (c :: rest) = closes expected rest := by
  rw [closes, closing?, if_neg hround, if_neg hsquare]
  exact if_neg h

end Closes

/-- Each round bracket that a text closes has been opened by it or was open before. -/
theorem count_of_closes {expected s : List Char} (h : closes expected s = true) :
    s.count ')' = s.count '(' + expected.count ')' := by
  induction s generalizing expected with
  | nil =>
    rw [closes, List.isEmpty_iff] at h
    simp [h]
  | cons c rest ih =>
    by_cases hround : c = '('
    · subst hround
      have hrest := ih h
      rw [List.count_cons_self] at hrest
      rw [List.count_cons_of_ne (by decide), List.count_cons_self]
      omega
    · by_cases hsquare : c = '['
      · subst hsquare
        rw [List.count_cons_of_ne (by decide), List.count_cons_of_ne (by decide), ih h,
          List.count_cons_of_ne (by decide)]
      · by_cases hclosing : c = ')' ∨ c = ']'
        · -- the bracket that is closed is the innermost one that is open
          rw [closes_closing _ _ hclosing, Bool.and_eq_true, beq_iff_eq] at h
          obtain ⟨others, rfl⟩ := List.head?_eq_some_iff.mp h.1
          have hrest : rest.count ')' = rest.count '(' + others.count ')' := ih h.2
          rw [List.count_cons_of_ne hround, List.count_cons, List.count_cons, hrest, Nat.add_assoc]
        · have hclosed : c ≠ ')' := fun heq => hclosing (Or.inl heq)
          rw [closes_other _ _ hround hsquare hclosing] at h
          rw [List.count_cons_of_ne hround, List.count_cons_of_ne hclosed, ih h]

/-- A round bracket is not closed where none has been opened. -/
theorem not_closes_of_not_mem {expected front : List Char} (hfront : '(' ∉ front) (hexpected : ')' ∉ expected)
    (back : List Char) : closes expected (front ++ ')' :: back) = false := by
  induction front generalizing expected with
  | nil =>
    rw [List.nil_append, closes_closing _ _ (Or.inl rfl)]
    have hhead : (expected.head? == some ')') = false := by
      rw [beq_eq_false_iff_ne]
      exact fun heq => hexpected (List.mem_of_head? heq)
    rw [hhead, Bool.false_and]
  | cons c rest ih =>
    rw [List.mem_cons, not_or] at hfront
    rw [List.cons_append]
    by_cases hsquare : c = '['
    · subst hsquare
      exact ih hfront.2 (by simpa using hexpected)
    · by_cases hclosing : c = ')' ∨ c = ']'
      · rw [closes_closing _ _ hclosing, ih hfront.2 (fun hmem => hexpected (List.mem_of_mem_tail hmem)),
          Bool.and_false]
      · rw [closes_other _ _ (Ne.symm hfront.1) hsquare hclosing, ih hfront.2 hexpected]

section Balanced

variable {s : List Char} (h : Balanced s)
include h

/-- **As many round brackets are closed as are opened.** -/
theorem Balanced.count_eq : s.count ')' = s.count '(' := count_of_closes h

/-- **What is closed has been opened.** -/
theorem Balanced.opened {front back : List Char} (hs : s = front ++ ')' :: back) : '(' ∈ front := by
  by_contra hfront
  rw [Balanced, hs, not_closes_of_not_mem hfront List.not_mem_nil] at h
  cases h

end Balanced

example : Balanced "Callable[[int, (str)], Dict[str, int]]".toList ∧ ¬Balanced "Dict[(str])".toList := by decide

/-! ## Trimmed texts -/

/-- No character but white space is lost. -/
theorem count_trim {c : Char} (hc : isBlank c = false) (s : List Char) : (trim s).count c = s.count c := by
  have hnone {space : List Char} (hspace : blank space = true) : space.count c = 0 := by
    refine List.count_eq_zero.mpr fun hmem => ?_
    rw [List.all_eq_true.mp hspace c hmem] at hc
    cases hc
  obtain ⟨front, back, hfront, hback, hs⟩ := exists_append_trim s
  conv => rhs; rw [hs, List.count_append, List.count_append, hnone hfront, hnone hback]
  omega

theorem edged_joinWords {pieces : List (List Char)} {piece : List Char} (hmem : piece ∈ pieces)
    (h : blank piece = false) : Edged (joinWords pieces) :=
  (joinWords_eq_nil_or_edged pieces).resolve_left (joinWords_ne_nil hmem h)

/-- The words of a line stand in front of those of the lines that follow. -/
theorem joinWords_cons {piece : List Char} (h : blank piece = false) (more : List (List Char)) :
    joinWords (piece :: more) =
      trim piece ++ (if joinWords more = [] then [] else ' ' :: joinWords more) := by
  have hpiece : (!(trim piece).isEmpty) = true := by simpa using (edged_trim h).ne_nil
  have hwords : ((piece :: more).map trim).filter (!·.isEmpty) =
      trim piece :: (more.map trim).filter (!·.isEmpty) := List.filter_cons_of_pos hpiece
  rw [joinWords, hwords]
  cases hmore : (more.map trim).filter (!·.isEmpty) with
  | nil =>
    have hnil : joinWords more = [] := by rw [joinWords, hmore]; rfl
    rw [if_pos hnil, List.append_nil]
    rfl
  | cons word rest =>
    have hjoin : joinWords more = join [' '] (word :: rest) := by rw [joinWords, hmore]
    have hne : joinWords more ≠ [] := by
      rw [hjoin, ← hmore]
      exact (edged_join (by rw [hmore]; exact List.cons_ne_nil _ _) edged_of_mem_words).ne_nil
    rw [if_neg hne, hjoin, join_cons_cons, List.append_assoc, List.singleton_append]

/-- A name in front of white space is the first word of what is left when both are trimmed. -/
theorem takeWhile_trim_append {name : List Char} (h : Edged name) (hname : ∀ c ∈ name, isBlank c = false)
    {rest : List Char} (hrest : ∀ c ∈ rest.head?, isBlank c = true) :
    (trim (name ++ rest)).takeWhile (!isBlank ·) = name := by
  have hword : ∀ c ∈ name, (!isBlank c) = true := fun c hc => by rw [hname c hc]; rfl
  rw [trim, trimStart_of_unindented (h.unindented_append rest)]
  cases hblank : blank rest with
  | true => rw [trimEnd_append _ hblank, h.trimEnd, List.takeWhile_eq_self_iff.mpr hword]
  | false =>
    rw [trimEnd_append_of_not_blank hblank, List.takeWhile_append_of_pos hword]
    obtain ⟨space, -, hspace⟩ := exists_trimEnd_append rest
    cases hend : trimEnd rest with
    | nil => rw [List.takeWhile_nil, List.append_nil]
    | cons c others =>
      rw [hend, List.cons_append] at hspace
      have hc : isBlank c = true := hrest c (by rw [hspace]; rfl)
      rw [List.takeWhile_cons_of_neg (by simp [hc]), List.append_nil]

end ClassCli.Text

namespace ClassCli.Docstring.Indented

open Text

/-! ## Stretches in round brackets -/

theorem withoutBrackets_append {front : List Char} (h : '(' ∉ front) (s : List Char) :
    withoutBrackets (front ++ s) = front ++ withoutBrackets s := by
  induction front with
  | nil => rfl
  | cons c rest ih =>
    rw [List.mem_cons, not_or] at h
    have hc : (decide (c = '(') && (rest ++ s).contains ')') = false := by
      rw [decide_eq_false (Ne.symm h.1), Bool.false_and]
    rw [List.cons_append, withoutBrackets, hc, if_neg Bool.false_ne_true, ih h.2, List.cons_append]

/-- A stretch goes up to the nearest closing bracket. -/
theorem withoutBrackets_bracket {s : List Char} (h : ')' ∉ s) (rest : List Char) :
    withoutBrackets ('(' :: (s ++ ')' :: rest)) = withoutBrackets rest := by
  have hskip : withoutBrackets.skip (s ++ ')' :: rest) = withoutBrackets rest := by
    induction s with
    | nil => rw [List.nil_append, withoutBrackets.skip, if_pos rfl]
    | cons c more ih =>
      rw [List.mem_cons, not_or] at h
      rw [List.cons_append, withoutBrackets.skip, if_neg (Ne.symm h.1), ih h.2]
  have hclosed : (s ++ ')' :: rest).contains ')' = true := by simp
  rw [withoutBrackets, hclosed, decide_eq_true rfl, Bool.true_and, if_pos rfl, hskip]

/-- **Each stretch takes away one closing bracket, and at least one opening one**: the closing brackets that are too
many stay. -/
theorem surplus_withoutBrackets (s : List Char) :
    s.count ')' + (withoutBrackets s).count '(' ≤ (withoutBrackets s).count ')' + s.count '(' := by
  -- the same for the rest of a stretch, whose opening bracket has been read
  have hboth : s.count ')' + (withoutBrackets s).count '(' ≤ (withoutBrackets s).count ')' + s.count '(' ∧
      (')' ∈ s → s.count ')' + (withoutBrackets.skip s).count '(' ≤
        (withoutBrackets.skip s).count ')' + s.count '(' + 1) := by
    induction s with
    | nil => simp [withoutBrackets]
    | cons c rest ih =>
      obtain ⟨hoff, hon⟩ := ih
      constructor
      · rw [withoutBrackets]
        split
        · rename_i hopen
          rw [Bool.and_eq_true, decide_eq_true_eq, List.contains_iff_mem] at hopen
          obtain ⟨rfl, hmem⟩ := hopen
          have hrest := hon hmem
          rw [List.count_cons_of_ne (by decide), List.count_cons_self]
          omega
        · simp only [List.count_cons]
          omega
      · intro hmem
        rw [withoutBrackets.skip]
        split
        · rename_i hclose
          rw [hclose, List.count_cons_self, List.count_cons_of_ne (by decide)]
          omega
        · rename_i hother
          have hrest := hon ((List.mem_cons.mp hmem).resolve_left (Ne.symm hother))
          rw [List.count_cons_of_ne hother, List.count_cons]
          omega
  exact hboth.1

/-- Of a type in brackets with brackets of its own a closing one is left. -/
theorem closing_mem_withoutBrackets {type : List Char} (h : Balanced type) (hmem : ')' ∈ type) :
    ')' ∈ withoutBrackets ('(' :: (type ++ [')'])) := by
  obtain ⟨front, back, hparts, hfront⟩ := List.eq_append_cons_of_mem hmem
  have hopened := List.count_pos_iff.mpr (h.opened hparts)
  have hcount := h.count_eq
  have hsurplus := surplus_withoutBrackets (back ++ [')'])
  have hnone : front.count ')' = 0 := List.count_eq_zero.mpr hfront
  rw [hparts, List.count_append, List.count_append, List.count_cons_self, List.count_cons_of_ne (by decide)] at hcount
  rw [List.count_append, List.count_append, List.count_singleton_self, List.count_singleton,
    if_neg (by decide)] at hsurplus
  rw [hparts, List.append_assoc, List.cons_append, withoutBrackets_bracket hfront]
  exact List.count_pos_iff.mp (by omega)

/-! ## Entries -/

/-- An entry that may carry a type in round brackets. -/
structure TypedItem extends Item where
  type? : Option (List Char)
  deriving DecidableEq, Repr, Inhabited

namespace TypedItem

/-- What stands in front of the colon of an entry. -/
def head (item : TypedItem) : List Char :=
  item.name ++ match item.type? with
    | none => []
    | some type => ' ' :: '(' :: (type ++ [')'])

/-- The text of the line that opens an entry. -/
def opening (item : TypedItem) : List Char := item.head ++ (": ".toList ++ item.description)

/-- The lines of an entry at a depth, with those that continue it. -/
def lines (depth : Nat) (item : TypedItem) : List (List Char) := indented depth item.opening :: item.more

/-- An entry about an identifier, with a balanced type, a description and deeper lines behind it. -/
structure Proper (depth : Nat) (item : TypedItem) : Prop where
  named : isIdentifier item.name = true
  balanced : ∀ type ∈ item.type?, Balanced type
  described : blank item.description = false
  deeper : ∀ line ∈ item.more, depth < indentation line

instance (depth : Nat) (item : TypedItem) : Decidable (item.Proper depth) :=
  decidable_of_iff (isIdentifier item.name = true ∧ (∀ type ∈ item.type?, Balanced type) ∧
      blank item.description = false ∧ ∀ line ∈ item.more, depth < indentation line)
    ⟨fun ⟨h₁, h₂, h₃, h₄⟩ => ⟨h₁, h₂, h₃, h₄⟩, fun ⟨h₁, h₂, h₃, h₄⟩ => ⟨h₁, h₂, h₃, h₄⟩⟩

/-- Nothing in the type ends it early. -/
def Simple (item : TypedItem) : Prop := ∀ type ∈ item.type?, ':' ∉ type ∧ ')' ∉ type

instance (item : TypedItem) : Decidable item.Simple :=
  inferInstanceAs (Decidable (∀ type ∈ item.type?, ':' ∉ type ∧ ')' ∉ type))

/-- What stands in front of the first colon. -/
def front (item : TypedItem) : List Char := item.opening.takeWhile (· != ':')

/-- What stands behind the first colon. -/
def behind (item : TypedItem) : List Char := (item.opening.dropWhile (· != ':')).tail

/-- The name under which an entry is stored. -/
def key (item : TypedItem) : String := String.ofList (trim (withoutBrackets item.front))

/-- The text that is stored for an entry. -/
def text (item : TypedItem) : String := String.ofList (joinWords (item.behind :: item.more))

theorem splitOnce_opening (item : TypedItem) : splitOnce ':' item.opening = some (item.front, item.behind) := by
  have hmem : ':' ∈ item.opening := by
    rw [opening]
    exact List.mem_append_right _ (by simp)
  rw [splitOnce, front, behind]
  cases hdrop : item.opening.dropWhile (· != ':') with
  | nil => exact absurd (List.dropWhile_eq_nil_iff.mp hdrop ':' hmem) (by decide)
  | cons c after => rfl

theorem opening_eq (item : TypedItem) : item.opening = item.front ++ ':' :: item.behind :=
  eq_append_of_splitOnce item.splitOnce_opening

theorem not_mem_front (item : TypedItem) : ':' ∉ item.front := by
  intro hmem
  have hall := List.all_eq_true.mp (List.all_takeWhile (l := item.opening) (p := (· != ':'))) ':' hmem
  cases hall

/-- The parts of an entry whose colon is known. -/
theorem parts_eq {item : TypedItem} {before after : List Char} (hcolon : ':' ∉ before)
    (h : item.opening = before ++ ':' :: after) : item.front = before ∧ item.behind = after := by
  have hsplit := item.splitOnce_opening
  rw [h, splitOnce_append hcolon] at hsplit
  cases hsplit
  exact ⟨rfl, rfl⟩

end TypedItem

section Entry

variable {item : TypedItem} {depth : Nat} (h : item.Proper depth)
include h

theorem TypedItem.Proper.not_mem_name {c : Char} (hc : Code.isNameChar c = false) : c ∉ item.name :=
  fun hmem => Bool.false_ne_true (hc.symm.trans ((Code.isWord_of_isIdentifier h.named).2 c hmem))

theorem indentation_typedOpening : indentation (indented depth item.opening) = depth := by
  have hstart := (edged_identifier h.named).unindented_append
  rw [TypedItem.opening, TypedItem.head, List.append_assoc]
  exact indentation_indented_of_unindented (hstart _) depth

/-- **The lines of an entry** store one text under one name. -/
theorem foldl_typedLines (args : Entries String) (current : Option String) :
    (item.lines depth).foldl (takeLine depth) (args, current) = (args.put item.key item.text, some item.key) := by
  have hspaces {c : Char} (hc : c ≠ ' ') : c ∉ List.replicate depth ' ' := fun hmem =>
    hc (List.eq_of_mem_replicate hmem)
  have hsplit : splitOnce ':' (indented depth item.opening) = some (indented depth item.front, item.behind) := by
    have hmark : ':' ∉ indented depth item.front := by
      rw [indented, List.mem_append, not_or]
      exact ⟨hspaces (by decide), item.not_mem_front⟩
    have hline := splitOnce_append hmark item.behind
    rwa [indented, List.append_assoc, ← item.opening_eq] at hline
  have hbrackets : withoutBrackets (indented depth item.front) = indented depth (withoutBrackets item.front) :=
    withoutBrackets_append (hspaces (by decide)) item.front
  have hopening : takeLine depth (args, current) (indented depth item.opening) =
      (args.put item.key (String.ofList (joinWords [item.behind])), some item.key) := by
    rw [takeLine.eq_def]
    dsimp only
    rw [indentation_typedOpening h, if_pos (Nat.le_refl depth), hsplit]
    dsimp only
    rw [hbrackets, trim_indented_eq, joinWords_singleton, TypedItem.key]
  rw [TypedItem.lines, List.foldl_cons, hopening, foldl_deeper args item.key [item.behind] h.deeper]
  rfl

end Entry

/-! ## Sections -/

/-- Entries about different names. -/
structure TypedList (depth : Nat) (items : List TypedItem) : Prop where
  proper : ∀ item ∈ items, item.Proper depth
  distinct : (items.map fun item => item.name).Nodup

instance (depth : Nat) (items : List TypedItem) : Decidable (TypedList depth items) :=
  decidable_of_iff ((∀ item ∈ items, item.Proper depth) ∧ (items.map fun item => item.name).Nodup)
    ⟨fun ⟨h₁, h₂⟩ => ⟨h₁, h₂⟩, fun h => ⟨h.proper, h.distinct⟩⟩

/-- What is stored for an entry. -/
def TypedItem.stored (item : TypedItem) : String × String := (item.key, item.text)

theorem foldl_typedSection {depth : Nat} {items : List TypedItem} (h : ∀ item ∈ items, item.Proper depth)
    (args : Entries String) (current : Option String) :
    ((items.flatMap (TypedItem.lines depth)).foldl (takeLine depth) (args, current)).1 =
      (items.map TypedItem.stored).foldl (fun args pair => args.put pair.1 pair.2) args := by
  induction items generalizing args current with
  | nil => rfl
  | cons item rest ih =>
    rw [List.forall_mem_cons] at h
    rw [List.flatMap_cons, List.foldl_append, foldl_typedLines h.1, ih h.2]
    rfl

/-- **What is read** from the entries of a section: for each of them what is stored for it. -/
theorem args_of_titled_typed {depth : Nat} {items : List TypedItem} (h : ∀ item ∈ items, item.Proper depth)
    {lines : List (List Char)} (hlines : titled argTitles lines = some (items.flatMap (TypedItem.lines depth))) :
    args lines = Entries.ofPairs (items.map TypedItem.stored) := by
  rw [args, hlines]
  dsimp only
  cases items with
  | nil => rfl
  | cons item rest =>
    have hbase : (((item :: rest).flatMap (TypedItem.lines depth)).head?.map indentation).getD 0 = depth :=
      indentation_typedOpening (h item List.mem_cons_self)
    rw [hbase]
    exact foldl_typedSection h [] none

/-! ## Types that are taken away as a whole -/

section Keys

variable {item : TypedItem} {depth : Nat} (h : item.Proper depth)
include h

/-- The name stands in front, perhaps with a space behind it. -/
theorem exists_front_eq : ∃ rest, item.front = item.name ++ rest ∧ ∀ c ∈ rest.head?, c = ' ' := by
  have hcolon : ':' ∉ item.name := h.not_mem_name (by decide)
  have hname : ∀ c ∈ item.name, (c != ':') = true := fun c hc => bne_iff_ne.mpr fun heq => hcolon (heq ▸ hc)
  rw [TypedItem.front, TypedItem.opening, TypedItem.head, List.append_assoc, List.takeWhile_append_of_pos hname]
  refine ⟨_, rfl, ?_⟩
  cases item.type? with
  | none => simp
  | some type => simp

/-- **A key that is an identifier is the name**: what is left of a type makes no other name. -/
theorem eq_name_of_key {name : List Char} (hname : isIdentifier name = true)
    (hkey : item.key = String.ofList name) : name = item.name := by
  obtain ⟨rest, hfront, hspace⟩ := exists_front_eq h
  have hblank : ∀ c ∈ (withoutBrackets rest).head?, isBlank c = true := by
    intro c hc
    cases rest with
    | nil => cases hc
    | cons first others =>
      obtain rfl := hspace first rfl
      cases hc
      rfl
  have htrim : trim (item.name ++ withoutBrackets rest) = name := by
    rw [← withoutBrackets_append (h.not_mem_name (by decide)) rest, ← hfront]
    exact String.ofList_injective hkey
  have hword := takeWhile_trim_append (edged_identifier h.named) (isBlank_of_mem_identifier h.named) hblank
  rw [htrim, List.takeWhile_eq_self_iff.mpr] at hword
  · exact hword
  · intro c hc
    rw [isBlank_of_mem_identifier hname c hc]
    rfl

/-- Without a colon in the type the description is all that stands behind the colon. -/
theorem parts_of_no_colon (hcolon : ∀ type ∈ item.type?, ':' ∉ type) :
    item.front = item.head ∧ item.behind = ' ' :: item.description := by
  refine TypedItem.parts_eq ?_ rfl
  rw [TypedItem.head, List.mem_append, not_or]
  refine ⟨h.not_mem_name (by decide), ?_⟩
  cases htype : item.type? with
  | none => exact List.not_mem_nil
  | some type => simpa using hcolon type htype

/-- With a colon in the type more than the description stands behind the first colon. -/
theorem text_ne_of_colon {type : List Char} (htype : item.type? = some type) (hcolon : ':' ∈ type) :
    item.text ≠ item.entry.2 := by
  obtain ⟨before, after, htypes, hbefore⟩ := List.eq_append_cons_of_mem hcolon
  have hhead : item.opening = (item.name ++ (' ' :: '(' :: before)) ++
      ':' :: (after ++ ')' :: ':' :: ' ' :: item.description) := by
    rw [TypedItem.opening, TypedItem.head, htype, htypes]
    simp
  have hmark : ':' ∉ item.name ++ (' ' :: '(' :: before) := by
    rw [List.mem_append, not_or]
    exact ⟨h.not_mem_name (by decide), by simpa using hbefore⟩
  have hbehind := (TypedItem.parts_eq hmark hhead).2
  have hheld : blank item.behind = false := by
    rw [hbehind, blank, List.all_append]
    simp [show isBlank ')' = false by decide]
  intro htext
  have hjoin : joinWords (item.behind :: item.more) = joinWords (item.description :: item.more) :=
    String.ofList_injective htext
  -- a closing bracket stands in front of the description
  rw [joinWords_cons hheld, joinWords_cons h.described] at hjoin
  have hcount := congrArg (List.count ')') (List.append_cancel_right hjoin)
  rw [count_trim (by decide), count_trim (by decide), hbehind, List.count_append, List.count_cons_self,
    List.count_cons_of_ne (by decide), List.count_cons_of_ne (by decide)] at hcount
  omega

theorem text_of_no_colon (hcolon : ∀ type ∈ item.type?, ':' ∉ type) : item.text = item.entry.2 := by
  have htrim : trim (' ' :: item.description) = trim item.description := trim_indented_eq item.description 1
  rw [TypedItem.text, (parts_of_no_colon h hcolon).2, Item.entry, joinWords, List.map_cons, htrim]
  rfl

/-- Without a colon in the type the key is the name exactly if no bracket in the type closes it early. -/
theorem key_eq_name_iff (hcolon : ∀ type ∈ item.type?, ':' ∉ type) :
    item.key = String.ofList item.name ↔ ∀ type ∈ item.type?, ')' ∉ type := by
  have hname := edged_identifier h.named
  have hround : '(' ∉ item.name := h.not_mem_name (by decide)
  rw [TypedItem.key, (parts_of_no_colon h hcolon).1, TypedItem.head, withoutBrackets_append hround,
    String.ofList_inj]
  cases htype : item.type? with
  | none =>
    refine iff_of_true ?_ (fun type hmem => by cases hmem)
    rw [withoutBrackets, List.append_nil, hname.trim]
  | some type =>
    have hspace : withoutBrackets (' ' :: '(' :: (type ++ [')'])) = ' ' :: withoutBrackets ('(' :: (type ++ [')'])) :=
      withoutBrackets_append (show '(' ∉ [' '] by decide) _
    dsimp only
    rw [hspace]
    constructor
    · rintro hkey _ ⟨rfl⟩ hmem
      have hleft := closing_mem_withoutBrackets (h.balanced type htype) hmem
      have hcount := congrArg (List.count ')') hkey
      rw [count_trim (by decide), List.count_append, List.count_cons_of_ne (by decide)] at hcount
      have hpos := List.count_pos_iff.mpr hleft
      omega
    · intro hall
      rw [withoutBrackets_bracket (hall type rfl) [], withoutBrackets, ← trim_trimEnd, trimEnd_append _ rfl,
        hname.trimEnd, hname.trim]

end Keys

/-- **What is stored under the name of an entry**: its text, if nothing of a type is left in its key. The keys of
the other entries are other names. -/
theorem get?_stored {depth : Nat} {items : List TypedItem} (h : TypedList depth items) {item : TypedItem}
    (hmem : item ∈ items) :
    (Entries.ofPairs (items.map TypedItem.stored)).get? (String.ofList item.name) =
      if item.key = String.ofList item.name then some item.text else none := by
  obtain ⟨before, after, rfl⟩ := List.append_of_mem hmem
  have hdistinct := h.distinct
  rw [List.map_append, List.map_cons, List.nodup_middle, ← List.map_append, List.nodup_cons] at hdistinct
  have hother {others : List TypedItem} (hsub : others ⊆ before ++ after) :
      String.ofList item.name ∉ Entries.keys (others.map TypedItem.stored) := by
    rw [Entries.keys, List.map_map, List.mem_map]
    rintro ⟨other, ho, hkey⟩
    have hin : other ∈ before ++ item :: after := by
      rcases List.mem_append.mp (hsub ho) with ho | ho
      · exact List.mem_append_left _ ho
      · exact List.mem_append_right _ (List.mem_cons_of_mem _ ho)
    have hname := eq_name_of_key (h.proper other hin) (h.proper item hmem).named hkey
    exact hdistinct.1 (List.mem_map.mpr ⟨other, hsub ho, hname.symm⟩)
  have hfold : Entries.ofPairs ((before ++ item :: after).map TypedItem.stored) =
      (after.map TypedItem.stored).foldl (fun args pair => args.put pair.1 pair.2)
        (Entries.put item.key item.text (Entries.ofPairs (before.map TypedItem.stored))) := by
    rw [List.map_append, List.map_cons, Entries.ofPairs, List.foldl_append, List.foldl_cons]
    rfl
  have hbefore : (Entries.ofPairs (before.map TypedItem.stored)).get? (String.ofList item.name) = none :=
    Entries.get?_foldl_put_of_not_mem (hother (List.subset_append_left _ _)) []
  rw [hfold, Entries.get?_foldl_put_of_not_mem (hother (List.subset_append_right _ _))]
  split
  · rename_i hkey
    rw [hkey, Entries.get?_put_self]
  · rename_i hkey
    rw [Entries.get?_put_of_ne (Ne.symm hkey), hbefore]

/-- What is stored under the name of an entry is its description exactly if its type is simple. -/
theorem get?_stored_eq_some_iff {depth : Nat} {items : List TypedItem} (h : TypedList depth items) {item : TypedItem}
    (hmem : item ∈ items) :
    (Entries.ofPairs (items.map TypedItem.stored)).get? (String.ofList item.name) = some item.entry.2 ↔
      item.Simple := by
  have hitem := h.proper item hmem
  rw [get?_stored h hmem]
  by_cases hcolon : ∀ type ∈ item.type?, ':' ∉ type
  · have hsimple : item.Simple ↔ ∀ type ∈ item.type?, ')' ∉ type :=
      ⟨fun hs type htype => (hs type htype).2, fun hs type htype => ⟨hcolon type htype, hs type htype⟩⟩
    rw [hsimple, ← key_eq_name_iff hitem hcolon, text_of_no_colon hitem hcolon]
    split
    · rename_i hkey
      exact iff_of_true rfl hkey
    · rename_i hkey
      exact iff_of_false (Option.some_ne_none _ ∘ Eq.symm) hkey
  · refine iff_of_false (fun hsome => hcolon ?_) fun hs => hcolon fun type htype => (hs type htype).1
    intro type htype hmark
    split at hsome
    · exact text_ne_of_colon hitem htype hmark (Option.some.inj hsome)
    · cases hsome

end ClassCli.Docstring.Indented
