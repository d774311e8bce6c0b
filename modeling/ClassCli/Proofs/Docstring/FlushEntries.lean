import Mathlib.Data.List.Induction
import ClassCli.Proofs.Code.Token
import ClassCli.Proofs.Docstring.Described
import ClassCli.Proofs.Docstring.Indented
import ClassCli.Proofs.Docstring.LineEnds
import ClassCli.Proofs.Outline.DocstringLineEnds

/-!
# Entries flush with their title

The entries of a section may stand deeper than its title or flush with it. A flush section ends at the next
title, and every line of it can be taken for one, however deep the line stands; an indented section ends
where the depth does. So the two layouts say the same exactly if no line that continues an entry reads like a
title. Otherwise the flush section ends there: the rest of that entry and all later entries are lost.

* **`Item`** — an entry with the lines that continue it.
* **`foldl_itemLines`** — what is read from the entries of a section.
* **`readable`** — the part of the entries that a flush section holds.
* **`args_flush`**, **`args_deep`** — what is read in the two layouts.
* **`flush_eq_deep_iff`** — where they agree.
-/

namespace ClassCli.Text

/-! ## Identifiers hold no white space -/

/-- The characters of white space, by their code points. -/
def blankCodes : List Nat :=
  [9, 10, 11, 12, 13, 32, 0x85, 0xa0, 0x1680, 0x2000, 0x2001, 0x2002, 0x2003, 0x2004, 0x2005, 0x2006, 0x2007,
    0x2008, 0x2009, 0x200a, 0x2028, 0x2029, 0x202f, 0x205f, 0x3000]

theorem mem_blankCodes {c : Char} (h : isBlank c = true) : c.toNat ∈ blankCodes := by
  unfold isBlank at h
  dsimp only at h
  unfold blankCodes
  simp only [List.mem_cons, List.not_mem_nil, or_false]
  split at h
  · simp only [Bool.or_eq_true, Bool.and_eq_true, beq_iff_eq, decide_eq_true_eq] at h
    omega
  · simp only [Bool.or_eq_true, Bool.and_eq_true, beq_iff_eq, decide_eq_true_eq] at h
    omega

theorem not_identifier_of_isBlank {c : Char} (h : isBlank c = true) :
    isIdentifierStart c = false ∧ isIdentifierPart c = false := by
  have hcodes : ∀ n ∈ blankCodes,
      isIdentifierStart (Char.ofNat n) = false ∧ isIdentifierPart (Char.ofNat n) = false := by decide +kernel
  have hc := hcodes _ (mem_blankCodes h)
  rwa [Char.ofNat_toNat] at hc

theorem isBlank_of_mem_identifier {name : List Char} (h : isIdentifier name = true) :
    ∀ c ∈ name, isBlank c = false := by
  intro c hc
  rw [← Bool.not_eq_true]
  intro hblank
  have hnone := not_identifier_of_isBlank hblank
  cases name with
  | nil => cases hc
  | cons first rest =>
    rw [isIdentifier, Bool.and_eq_true, List.all_eq_true] at h
    rcases List.mem_cons.mp hc with rfl | hc
    · exact Bool.false_ne_true (hnone.1.symm.trans h.1)
    · exact Bool.false_ne_true (hnone.2.symm.trans (h.2 c hc))

theorem edged_identifier {name : List Char} (h : isIdentifier name = true) : Edged name :=
  edged_of_visible (Code.isWord_of_isIdentifier h).1 (isBlank_of_mem_identifier h)

/-! ## Words that are added -/

theorem joinWords_ne_nil {pieces : List (List Char)} {piece : List Char} (hmem : piece ∈ pieces)
    (h : blank piece = false) : joinWords pieces ≠ [] := by
  have hword : trim piece ∈ (pieces.map trim).filter (!·.isEmpty) := by
    refine List.mem_filter.mpr ⟨List.mem_map_of_mem hmem, ?_⟩
    simpa using (edged_trim h).ne_nil
  rw [joinWords]
  exact (edged_join (List.ne_nil_of_mem hword) edged_of_mem_words).ne_nil

/-- More pieces that hold something make what is joined longer. -/
theorem length_joinWords_lt {pieces extra : List (List Char)} (hpieces : joinWords pieces ≠ [])
    (hne : extra ≠ []) (hextra : ∀ piece ∈ extra, blank piece = false) :
    (joinWords pieces).length < (joinWords (pieces ++ extra)).length := by
  induction extra using List.reverseRecOn with
  | nil => exact absurd rfl hne
  | append_singleton front piece ih =>
    rw [List.forall_mem_append, List.forall_mem_singleton] at hextra
    have hfront : (joinWords pieces).length ≤ (joinWords (pieces ++ front)).length := by
      by_cases hnil : front = []
      · rw [hnil, List.append_nil]
      · exact Nat.le_of_lt (ih hnil hextra.1)
    have hlast : joinWords (pieces ++ front) ≠ [] :=
      List.length_pos_iff.mp (Nat.lt_of_lt_of_le (List.length_pos_iff.mpr hpieces) hfront)
    rw [← List.append_assoc, joinWords_append hextra.2 hlast, List.length_append, List.length_cons]
    omega

/-- Spaces in front of the pieces make no difference. -/
theorem joinWords_cons_map_indented (depth : Nat) (first : List Char) (pieces : List (List Char)) :
    joinWords (first :: pieces.map (indented depth)) = joinWords (first :: pieces) := by
  have htrim : trim ∘ indented depth = trim := funext fun piece => trim_indented_eq piece depth
  rw [joinWords, List.map_cons, List.map_map, htrim, joinWords, List.map_cons]

end ClassCli.Text

namespace ClassCli.Docstring.Indented

open Text

/-! ## Entries -/

/-- An entry: a name, what is said behind the colon, and the lines that continue it. -/
structure Item where
  name : List Char
  description : List Char
  more : List (List Char)
  deriving DecidableEq, Repr, Inhabited

namespace Item

/-- An entry about an identifier, each of whose lines holds something. -/
structure Proper (item : Item) : Prop where
  named : isIdentifier item.name = true
  described : blank item.description = false
  unbroken : '\n' ∉ item.description
  more : ∀ line ∈ item.more, blank line = false ∧ '\n' ∉ line

instance (item : Item) : Decidable item.Proper :=
  decidable_of_iff (isIdentifier item.name = true ∧ blank item.description = false ∧
      '\n' ∉ item.description ∧ ∀ line ∈ item.more, blank line = false ∧ '\n' ∉ line)
    ⟨fun ⟨h₁, h₂, h₃, h₄⟩ => ⟨h₁, h₂, h₃, h₄⟩, fun ⟨h₁, h₂, h₃, h₄⟩ => ⟨h₁, h₂, h₃, h₄⟩⟩

/-- The text of the line that opens an entry. -/
def opening (item : Item) : List Char := item.name ++ (": ".toList ++ item.description)

/-- The lines of an entry at a depth. What continues it stands four spaces deeper. -/
def lines (depth : Nat) (item : Item) : List (List Char) :=
  indented depth item.opening :: item.more.map (indented (depth + 4))

/-- What is to be read about an entry: all its lines in one. -/
def entry (item : Item) : String × String :=
  (String.ofList item.name, String.ofList (joinWords (item.description :: item.more)))

/-- No line that continues the entry reads like a title. -/
def Whole (item : Item) : Prop := ∀ line ∈ item.more, looksLikeTitle (trim line) = false

instance (item : Item) : Decidable item.Whole :=
  inferInstanceAs (Decidable (∀ line ∈ item.more, looksLikeTitle (trim line) = false))

/-- The entry up to the first line that reads like a title. -/
def cut (item : Item) : Item :=
  { item with more := item.more.takeWhile fun line => !looksLikeTitle (trim line) }

end Item

section Deeper

variable {base : Nat} (args : Entries String) (entry : String) (pieces : List (List Char))

/-- A deeper line adds its words to the last entry. -/
theorem takeLine_deeper {line : List Char} (h : base < indentation line) :
    takeLine base (args.put entry (String.ofList (joinWords pieces)), some entry) line =
      (args.put entry (String.ofList (joinWords (pieces ++ [line]))), some entry) := by
  rw [takeLine.eq_def]
  dsimp only
  rw [if_neg (Nat.not_le.mpr h)]
  dsimp only
  rw [Entries.get?_put_self, Option.getD_some, String.toList_ofList, joinWords_concat, Entries.put_put]

/-- **Deeper lines continue an entry**: their words are added one line after the other. -/
theorem foldl_deeper {more : List (List Char)} (h : ∀ line ∈ more, base < indentation line) :
    more.foldl (takeLine base) (args.put entry (String.ofList (joinWords pieces)), some entry) =
      (args.put entry (String.ofList (joinWords (pieces ++ more))), some entry) := by
  induction more generalizing pieces with
  | nil => rw [List.append_nil, List.foldl_nil]
  | cons line rest ih =>
    rw [List.forall_mem_cons] at h
    rw [List.foldl_cons, takeLine_deeper args entry pieces h.1, ih (pieces ++ [line]) h.2, ← List.append_cons]

end Deeper

section Reading

variable {item : Item} (h : item.Proper)
include h

theorem Item.Proper.cut : item.cut.Proper :=
  ⟨h.named, h.described, h.unbroken, fun line hline => h.more line ((List.takeWhile_sublist _).subset hline)⟩

theorem head?_opening : ∃ c, item.opening.head? = some c ∧ isBlank c = false := by
  obtain ⟨c, hc, hvisible⟩ := (edged_identifier h.named).head
  refine ⟨c, ?_, hvisible⟩
  rw [Item.opening, List.head?_append, hc]
  rfl

theorem indentation_opening (depth : Nat) : indentation (indented depth item.opening) = depth := by
  obtain ⟨c, hc, hvisible⟩ := head?_opening h
  obtain ⟨rest, hrest⟩ := List.head?_eq_some_iff.mp hc
  rw [indentation_indented_eq, hrest, indentation, List.takeWhile_cons_of_neg (by simp [hvisible])]
  rfl

theorem blank_opening (depth : Nat) : blank (indented depth item.opening) = false := by
  obtain ⟨c, hc, hvisible⟩ := head?_opening h
  obtain ⟨rest, hrest⟩ := List.head?_eq_some_iff.mp hc
  rw [blank_indented_eq, hrest, blank, List.all_cons, hvisible, Bool.false_and]

/-- Every line of an entry holds something and stands at its depth or deeper. -/
theorem depth_itemLines (depth : Nat) :
    ∀ line ∈ item.lines depth, blank line = false ∧ depth ≤ indentation line := by
  rw [Item.lines, List.forall_mem_cons]
  constructor
  · rw [indentation_opening h]
    exact ⟨blank_opening h depth, Nat.le_refl depth⟩
  · intro line hline
    obtain ⟨text, htext, rfl⟩ := List.mem_map.mp hline
    rw [blank_indented_eq, indentation_indented_eq]
    exact ⟨(h.more text htext).1, by omega⟩

theorem unbroken_itemLines (depth : Nat) : ∀ line ∈ item.lines depth, '\n' ∉ line := by
  have hspaces (depth : Nat) {text : List Char} (htext : '\n' ∉ text) : '\n' ∉ indented depth text := by
    rw [indented, List.mem_append, not_or]
    exact ⟨fun hmem => absurd (List.eq_of_mem_replicate hmem) (by decide), htext⟩
  rw [Item.lines, List.forall_mem_cons]
  constructor
  · refine hspaces depth ?_
    rw [Item.opening, List.mem_append, List.mem_append, not_or, not_or]
    refine ⟨fun hmem => ?_, by decide, h.unbroken⟩
    exact absurd (isBlank_of_mem_identifier h.named _ hmem) (by decide)
  · intro line hline
    obtain ⟨text, htext, rfl⟩ := List.mem_map.mp hline
    exact hspaces _ (h.more text htext).2

/-- The line of an entry stores what stands behind the colon. -/
theorem takeLine_opening (depth : Nat) (args : Entries String) (current : Option String) :
    takeLine depth (args, current) (indented depth item.opening) =
      (args.put (String.ofList item.name) (String.ofList (joinWords [item.description])),
        some (String.ofList item.name)) := by
  have hclean {c : Char} (hspace : c ≠ ' ') (hword : Code.isNameChar c = false) :
      c ∉ indented depth item.name := by
    rw [indented, List.mem_append, not_or]
    refine ⟨fun hmem => hspace (List.eq_of_mem_replicate hmem), fun hmem => ?_⟩
    exact Bool.false_ne_true (hword.symm.trans ((Code.isWord_of_isIdentifier h.named).2 c hmem))
  have hsplit : splitOnce ':' (indented depth item.opening) =
      some (indented depth item.name, indented 1 item.description) := by
    have hmark := splitOnce_append (hclean (c := ':') (by decide) (by decide)) (indented 1 item.description)
    rw [indented, List.append_assoc] at hmark
    exact hmark
  have hbracket := withoutBrackets_eq (hclean (c := '(') (by decide) (by decide))
  rw [takeLine.eq_def]
  dsimp only
  rw [indentation_opening h, if_pos (Nat.le_refl depth), hsplit]
  dsimp only
  rw [hbracket, trim_indented depth (edged_identifier h.named), trim_indented_eq, joinWords_singleton]

/-- **The lines of an entry** store what it says. -/
theorem foldl_itemLines {depth : Nat} {args : Entries String} (hnew : item.entry.1 ∉ args.keys)
    (current : Option String) :
    (item.lines depth).foldl (takeLine depth) (args, current) =
      (args ++ [item.entry], some item.entry.1) := by
  have hdeeper : ∀ line ∈ item.more.map (indented (depth + 4)), depth < indentation line := by
    intro line hline
    obtain ⟨text, -, rfl⟩ := List.mem_map.mp hline
    rw [indentation_indented_eq]
    omega
  rw [Item.lines, List.foldl_cons, takeLine_opening h, foldl_deeper args _ _ hdeeper, List.singleton_append,
    joinWords_cons_map_indented]
  show (Entries.put item.entry.1 item.entry.2 args, some item.entry.1) = _
  rw [Entries.put_of_not_mem hnew]

end Reading

/-! ## Sections -/

/-- The lines of the entries of a section. -/
def sectionLines (depth : Nat) (items : List Item) : List (List Char) := items.flatMap (Item.lines depth)

/-- Entries about different names. -/
structure Listed (items : List Item) : Prop where
  proper : ∀ item ∈ items, item.Proper
  distinct : (items.map (·.name)).Nodup

instance (items : List Item) : Decidable (Listed items) :=
  decidable_of_iff ((∀ item ∈ items, item.Proper) ∧ (items.map (·.name)).Nodup)
    ⟨fun ⟨h₁, h₂⟩ => ⟨h₁, h₂⟩, fun h => ⟨h.proper, h.distinct⟩⟩

section Sections

variable {items : List Item}

theorem depth_sectionLines (h : ∀ item ∈ items, item.Proper) (depth : Nat) :
    ∀ line ∈ sectionLines depth items, blank line = false ∧ depth ≤ indentation line := by
  intro line hline
  obtain ⟨item, hitem, hline⟩ := List.mem_flatMap.mp hline
  exact depth_itemLines (h item hitem) depth line hline

theorem unbroken_sectionLines (h : ∀ item ∈ items, item.Proper) (depth : Nat) :
    ∀ line ∈ sectionLines depth items, '\n' ∉ line := by
  intro line hline
  obtain ⟨item, hitem, hline⟩ := List.mem_flatMap.mp hline
  exact unbroken_itemLines (h item hitem) depth line hline

/-- A section opens at its depth. -/
theorem head?_sectionLines {item : Item} {rest : List Item} (h : item.Proper) (depth : Nat) :
    (sectionLines depth (item :: rest)).head?.map indentation = some depth := by
  show some (indentation (indented depth item.opening)) = some depth
  rw [indentation_opening h]

theorem Listed.nodup_keys (h : Listed items) : (Entries.keys (items.map Item.entry)).Nodup := by
  have hkeys : Entries.keys (items.map Item.entry) = (items.map (·.name)).map String.ofList := by
    rw [Entries.keys, List.map_map, List.map_map]
    rfl
  rw [hkeys]
  exact List.Nodup.map (fun _ _ => String.ofList_injective) h.distinct

/-- **The lines of all entries** store what they say, in their order. -/
theorem foldl_sectionLines (h : ∀ item ∈ items, item.Proper) {depth : Nat} {args : Entries String}
    (hnew : (Entries.keys (args ++ items.map Item.entry)).Nodup) (current : Option String) :
    ((sectionLines depth items).foldl (takeLine depth) (args, current)).1 = args ++ items.map Item.entry := by
  induction items generalizing args current with
  | nil => exact (List.append_nil args).symm
  | cons item rest ih =>
    rw [List.forall_mem_cons] at h
    have hitem : item.entry.1 ∉ args.keys := by
      rw [Entries.keys, List.map_append] at hnew
      exact fun hmem => List.disjoint_of_nodup_append hnew hmem List.mem_cons_self
    rw [List.map_cons, List.append_cons] at hnew
    rw [sectionLines, List.flatMap_cons, List.foldl_append, foldl_itemLines h.1 hitem, ← sectionLines,
      ih h.2 hnew, List.map_cons, ← List.append_cons]

/-- What is read when the entries are all that a section holds. -/
theorem args_of_titled (h : Listed items) {depth : Nat} {lines : List (List Char)}
    (hlines : titled argTitles lines = some (sectionLines depth items)) :
    args lines = items.map Item.entry := by
  rw [args, hlines]
  dsimp only
  cases items with
  | nil => rfl
  | cons item rest =>
    rw [head?_sectionLines (h.proper item List.mem_cons_self), Option.getD_some]
    exact foldl_sectionLines h.proper h.nodup_keys none

end Sections

/-! ## The part of a section that is read -/

/-- The entries up to the first line that reads like a title. -/
def readable : List Item → List Item
  | [] => []
  | item :: rest => item.cut :: if item.Whole then readable rest else []

/-- Whether a flush section goes on with a line. -/
def goesOn (line : List Char) : Bool := !blank line && !looksLikeTitle (trim line)

theorem map_name_readable (items : List Item) : (readable items).map (·.name) <+: items.map (·.name) := by
  induction items with
  | nil => exact List.prefix_rfl
  | cons item rest ih =>
    rw [readable, List.map_cons, List.map_cons]
    refine (List.prefix_cons_inj item.name).mpr ?_
    split
    · exact ih
    · exact List.nil_prefix

theorem proper_readable {items : List Item} (h : ∀ item ∈ items, item.Proper) :
    ∀ item ∈ readable items, item.Proper := by
  induction items with
  | nil => exact List.forall_mem_nil _
  | cons item rest ih =>
    rw [List.forall_mem_cons] at h
    rw [readable, List.forall_mem_cons]
    refine ⟨h.1.cut, ?_⟩
    split
    · exact ih h.2
    · exact List.forall_mem_nil _

theorem Listed.readable {items : List Item} (h : Listed items) : Listed (readable items) :=
  ⟨proper_readable h.proper, h.distinct.sublist (map_name_readable items).sublist⟩

/-- The only colon of a title is its last character. -/
theorem colon_not_mem_of_looksLikeTitle {line : List Char} (h : looksLikeTitle line = true) :
    ':' ∉ line.dropLast := by
  rw [looksLikeTitle] at h
  split at h
  · rename_i c rest hline
    rw [Bool.and_eq_true, List.all_eq_true] at h
    rw [eq_append_of_beforeEnd hline, List.dropLast_concat, List.mem_cons, not_or]
    refine ⟨fun hc => ?_, fun hmem => ?_⟩
    · rw [← hc] at h
      exact absurd h.1 (by decide)
    · exact absurd (h.2 ':' hmem) (by decide)
  · cases h

/-- The line that opens an entry does not read like a title, for something follows its first colon. -/
theorem goesOn_opening {item : Item} (h : item.Proper) (depth : Nat) :
    goesOn (indented depth item.opening) = true := by
  obtain ⟨c, hc, hvisible⟩ := head?_opening h
  obtain ⟨rest, hrest⟩ := List.head?_eq_some_iff.mp hc
  have hstart : trimStart item.opening = item.opening := by
    rw [hrest, trimStart, List.dropWhile_cons_of_neg (by simp [hvisible])]
  have htrim : trim item.opening = (item.name ++ ": ".toList) ++ trimEnd item.description := by
    rw [trim, hstart, Item.opening, ← List.append_assoc, trimEnd_append_of_not_blank h.described]
  have hsaid : trimEnd item.description ≠ [] := by
    intro hnil
    have hblank := blank_trimEnd item.description
    rw [hnil, h.described] at hblank
    cases hblank
  have hcolon : ':' ∈ (trim item.opening).dropLast := by
    rw [htrim, List.dropLast_append_of_ne_nil hsaid]
    exact List.mem_append_left _ (List.mem_append_right _ (by decide))
  have htitle : looksLikeTitle (trim item.opening) = false := by
    rw [← Bool.not_eq_true]
    exact fun htitle => colon_not_mem_of_looksLikeTitle htitle hcolon
  rw [goesOn, blank_opening h, trim_indented_eq, htitle]
  rfl

theorem goesOn_more {depth : Nat} {line : List Char} (h : blank line = false) :
    goesOn (indented depth line) = !looksLikeTitle (trim line) := by
  rw [goesOn, blank_indented_eq, trim_indented_eq, h]
  rfl

theorem takeWhile_itemLines {item : Item} (h : item.Proper) (depth : Nat) :
    (item.lines depth).takeWhile goesOn = item.cut.lines depth := by
  rw [Item.lines, List.takeWhile_cons_of_pos (goesOn_opening h depth), List.takeWhile_map]
  have hmore : item.more.takeWhile (goesOn ∘ indented (depth + 4)) =
      item.more.takeWhile fun line => !looksLikeTitle (trim line) :=
    takeWhile_congr fun line hline => goesOn_more (h.more line hline).1
  rw [hmore]
  rfl

/-- An entry is read as a whole exactly if nothing is cut off. -/
theorem cut_eq_self_iff {item : Item} : item.cut = item ↔ item.Whole := by
  have hwhole : item.Whole ↔ ∀ line ∈ item.more, (!looksLikeTitle (trim line)) = true :=
    forall₂_congr fun line _ => (Bool.not_eq_true' _).symm.to_iff
  rw [hwhole, ← List.takeWhile_eq_self_iff]
  constructor
  · exact fun heq => congrArg Item.more heq
  · exact fun heq => congrArg (fun more => { item with more }) heq

/-- **A flush section holds the readable entries**: it ends at the first line that reads like a title. -/
theorem takeWhile_sectionLines {items : List Item} (h : ∀ item ∈ items, item.Proper) (depth : Nat) :
    (sectionLines depth items).takeWhile goesOn = sectionLines depth (readable items) := by
  induction items with
  | nil => rfl
  | cons item rest ih =>
    rw [List.forall_mem_cons] at h
    have hfirst : ((item.lines depth).takeWhile goesOn).length = (item.lines depth).length ↔ item.Whole := by
      rw [takeWhile_itemLines h.1, ← cut_eq_self_iff, Item.lines, Item.lines, List.length_cons,
        List.length_cons, List.length_map, List.length_map, Nat.add_right_cancel_iff]
      constructor
      · intro hlength
        have hmore : item.cut.more = item.more := (List.takeWhile_prefix _).eq_of_length hlength
        exact congrArg (fun more => { item with more }) hmore
      · exact fun heq => by rw [heq]
    rw [sectionLines, List.flatMap_cons, ← sectionLines, List.takeWhile_append, readable]
    by_cases hwhole : item.Whole
    · rw [if_pos (hfirst.mpr hwhole), if_pos hwhole, ih h.2, cut_eq_self_iff.mpr hwhole]
      rfl
    · rw [if_neg (mt hfirst.mp hwhole), if_neg hwhole, takeWhile_itemLines h.1]
      exact (List.append_nil _).symm

/-! ## Where nothing is lost -/

theorem entry_cut_eq_iff {item : Item} (h : item.Proper) : item.cut.entry = item.entry ↔ item.Whole := by
  constructor
  · intro heq line hline
    rw [← Bool.not_eq_true]
    intro htitle
    -- the lines that are cut off would have made the text longer
    have hsplit := List.takeWhile_append_dropWhile (p := fun line => !looksLikeTitle (trim line))
      (l := item.more)
    have hlost : item.more.dropWhile (fun line => !looksLikeTitle (trim line)) ≠ [] := by
      intro hnil
      have hall := List.dropWhile_eq_nil_iff.mp hnil line hline
      rw [htitle] at hall
      cases hall
    have hheld : ∀ piece ∈ item.more.dropWhile (fun line => !looksLikeTitle (trim line)),
        blank piece = false :=
      fun piece hpiece => (h.more piece ((List.dropWhile_suffix _).subset hpiece)).1
    have hsaid : joinWords (item.description :: item.cut.more) ≠ [] :=
      joinWords_ne_nil List.mem_cons_self h.described
    have hlonger := length_joinWords_lt hsaid hlost hheld
    have htext : joinWords (item.description :: item.cut.more) = joinWords (item.description :: item.more) :=
      String.ofList_injective (Prod.mk.inj heq).2
    rw [List.cons_append, Item.cut, hsplit, ← htext] at hlonger
    exact absurd hlonger (Nat.lt_irrefl _)
  · exact fun hwhole => by rw [cut_eq_self_iff.mpr hwhole]

/-- **What is readable says everything** exactly if all entries are read as a whole. -/
theorem map_entry_readable_iff {items : List Item} (h : ∀ item ∈ items, item.Proper) :
    (readable items).map Item.entry = items.map Item.entry ↔ ∀ item ∈ items, item.Whole := by
  induction items with
  | nil => exact ⟨fun _ => List.forall_mem_nil _, fun _ => rfl⟩
  | cons item rest ih =>
    rw [List.forall_mem_cons] at h
    rw [readable, List.map_cons, List.map_cons, List.cons.injEq, entry_cut_eq_iff h.1, List.forall_mem_cons]
    refine and_congr_right fun hwhole => ?_
    rw [if_pos hwhole, ih h.2]

/-! ## The two layouts -/

section Layouts

variable {items : List Item} (h : Listed items) (title : Nat)
include h

theorem dropWhile_blank_sectionLines (depth : Nat) :
    (sectionLines depth items).dropWhile blank = sectionLines depth items := by
  have hlines := depth_sectionLines h.proper depth
  cases hsection : sectionLines depth items with
  | nil => rfl
  | cons line rest =>
    rw [hsection] at hlines
    rw [List.dropWhile_cons_of_neg (by simp [(hlines line List.mem_cons_self).1])]

theorem bodyUnder_flush : bodyUnder title (sectionLines title items) = sectionLines title (readable items) := by
  unfold bodyUnder
  dsimp only
  rw [dropWhile_blank_sectionLines h]
  cases items with
  | nil => rfl
  | cons item rest =>
    rw [head?_sectionLines (h.proper item List.mem_cons_self), if_pos (beq_self_eq_true _)]
    exact takeWhile_sectionLines h.proper title

theorem bodyUnder_deep {depth : Nat} (hdepth : title < depth) :
    bodyUnder title (sectionLines depth items) = sectionLines depth items := by
  have hlines := depth_sectionLines h.proper depth
  have hheld : (sectionLines depth items).filter (!blank ·) = sectionLines depth items :=
    List.filter_eq_self.mpr fun line hline => by simp [(hlines line hline).1]
  have hdeep : (sectionLines depth items).takeWhile (fun line => title < indentation line) =
      sectionLines depth items :=
    List.takeWhile_eq_self_iff.mpr fun line hline => decide_eq_true (Nat.lt_of_lt_of_le hdepth (hlines line hline).2)
  have hhead : ((sectionLines depth items).head?.map indentation == some title) = false := by
    cases items with
    | nil => rfl
    | cons item rest =>
      rw [head?_sectionLines (h.proper item List.mem_cons_self)]
      simpa using Nat.ne_of_gt hdepth
  unfold bodyUnder
  dsimp only
  rw [dropWhile_blank_sectionLines h]
  rw [hhead, if_neg Bool.false_ne_true, hheld, hdeep]

end Layouts

/-- The lines of a docstring that ends with its section on parameters: what stands before the section, its
title at a depth, and the entries at theirs. -/
def sectioned (front : List (List Char)) (title : String) (depth : Nat) (entries : List (List Char)) :
    List (List Char) := front ++ indented depth title.toList :: entries

/-- The docstring with certain lines. -/
def docstring (lines : List (List Char)) : String := String.ofList (join ['\n'] lines)

section Docstrings

variable {front : List (List Char)} {title : String} (depth : Nat) {items : List Item}

theorem titled_sectioned (hfront : ∀ line ∈ front, isTitle argTitles line = false) (htitle : title ∈ argTitles)
    (entries : List (List Char)) :
    titled argTitles (sectioned front title depth entries) = some (bodyUnder depth entries) := by
  have hlines : ∀ title ∈ argTitles, trim title.toList = title.toList ∧ indentation title.toList = 0 := by
    decide
  have hfound : isTitle argTitles (indented depth title.toList) = true := by
    refine List.any_eq_true.mpr ⟨title, htitle, ?_⟩
    rw [trim_indented_eq, (hlines title htitle).1, beq_self_eq_true]
  rw [sectioned, titled_append hfront, titled_cons, if_pos hfound, indentation_indented_eq,
    (hlines title htitle).2, Nat.add_zero]

/-- The parameters that a docstring describes are read from its lines. -/
theorem documentedArgs_docstring {lines : List (List Char)} (h : ∀ line ∈ lines, '\n' ∉ line) :
    Convention.documentedArgs .google (docstring lines) = args lines := by
  rw [docstring, Convention.documentedArgs, String.toList_ofList]
  exact tidied_args.eq_of_tidyLines (Outline.tidyLines_lines_join h)

theorem unbroken_sectioned (hfront : ∀ line ∈ front, '\n' ∉ line) (htitle : title ∈ argTitles)
    {entries : List (List Char)} (hentries : ∀ line ∈ entries, '\n' ∉ line) :
    ∀ line ∈ sectioned front title depth entries, '\n' ∉ line := by
  have htitles : ∀ title ∈ argTitles, '\n' ∉ title.toList := by decide
  rw [sectioned, List.forall_mem_append, List.forall_mem_cons]
  refine ⟨hfront, fun hmem => ?_, hentries⟩
  rw [indented, List.mem_append] at hmem
  exact hmem.elim (fun hmem => absurd (List.eq_of_mem_replicate hmem) (by decide)) (htitles title htitle)

variable (hfront : ∀ line ∈ front, '\n' ∉ line ∧ isTitle argTitles line = false) (htitle : title ∈ argTitles)
  (h : Listed items)
include hfront htitle h

/-- **Entries that are flush with their title** are read up to the first line that reads like a title. -/
theorem args_flush : Convention.documentedArgs .google
    (docstring (sectioned front title depth (sectionLines depth items))) = (readable items).map Item.entry := by
  have hlines := unbroken_sectioned depth (fun line hline => (hfront line hline).1) htitle
    (unbroken_sectionLines h.proper depth)
  have hsection := titled_sectioned depth (fun line hline => (hfront line hline).2) htitle
    (sectionLines depth items)
  rw [bodyUnder_flush h] at hsection
  exact (documentedArgs_docstring hlines).trans (args_of_titled h.readable hsection)

/-- **Entries that stand deeper than their title** are read whatever they say. -/
theorem args_deep {deeper : Nat} (hdeeper : depth < deeper) : Convention.documentedArgs .google
    (docstring (sectioned front title depth (sectionLines deeper items))) = items.map Item.entry := by
  have hlines := unbroken_sectioned depth (fun line hline => (hfront line hline).1) htitle
    (unbroken_sectionLines h.proper deeper)
  have hsection := titled_sectioned depth (fun line hline => (hfront line hline).2) htitle
    (sectionLines deeper items)
  rw [bodyUnder_deep h depth hdeeper] at hsection
  exact (documentedArgs_docstring hlines).trans (args_of_titled h hsection)

/-- **Flush and indented entries say the same** exactly if no line that continues an entry reads like a
title. -/
theorem flush_eq_deep_iff :
    Convention.documentedArgs .google (docstring (sectioned front title depth (sectionLines depth items))) =
        Convention.documentedArgs .google
          (docstring (sectioned front title depth (sectionLines (depth + 4) items))) ↔
      ∀ item ∈ items, ∀ line ∈ item.more, looksLikeTitle (trim line) = false := by
  rw [args_flush depth hfront htitle h, args_deep depth hfront htitle h (by omega)]
  exact map_entry_readable_iff h.proper

end Docstrings

/-- Two entries, the first of which holds a line that reads like a title. -/
def noted : List Item :=
  [⟨"x".toList, "one".toList, ["Note:".toList, "two".toList]⟩, ⟨"y".toList, "three".toList, []⟩]

theorem flush_eq_deep_iff_noted :
    (∀ line ∈ ["Runs.".toList, []], '\n' ∉ line ∧ isTitle argTitles line = false) ∧ "Args:" ∈ argTitles ∧
      Listed noted ∧
      Convention.documentedArgs .google
          (docstring (sectioned ["Runs.".toList, []] "Args:" 0 (sectionLines 0 noted))) ≠
        Convention.documentedArgs .google
          (docstring (sectioned ["Runs.".toList, []] "Args:" 0 (sectionLines 4 noted))) := by
  have hfront : ∀ line ∈ ["Runs.".toList, []], '\n' ∉ line ∧ isTitle argTitles line = false := by decide
  have hlisted : Listed noted := by decide +kernel
  refine ⟨hfront, by decide, hlisted, ?_⟩
  rw [ne_eq, flush_eq_deep_iff 0 hfront (by decide) hlisted]
  decide +kernel

/-- The rest of the first entry and the whole second one are lost in the flush layout. -/
theorem flush_loses_entries :
    Convention.documentedArgs .google "Args:\nx: one\n    Note:\n    two\ny: three" = [("x", "one")] ∧
      Convention.documentedArgs .google "Args:\n    x: one\n        Note:\n        two\n    y: three" =
        [("x", "one Note: two"), ("y", "three")] := by
  decide +kernel

end ClassCli.Docstring.Indented
