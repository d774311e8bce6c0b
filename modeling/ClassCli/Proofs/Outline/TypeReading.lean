import ClassCli.Proofs.Outline.TypeLineEnds
import ClassCli.Proofs.Text.OneLiners

/-!
# Reading types

An annotation is cut at commas and bars outside its brackets, and every piece is read on by itself. What closes
no more brackets than it opens stays in one piece, whatever stands around it, so that a type can be wrapped into
others without being read differently.

* **`Enclosed`** — texts with balanced brackets that have certain marks only within them.
* **`splitTopFrom_within`**, **`splitTop_trim`** — the pieces of such a text, and of a trimmed one.
* **`read_eq`** — how an annotation is read, without a bound on the depth.
* **`read_subscript`** — a name with arguments.
* **`typing_optional_spellings`** — the spellings of an optional type.
-/

namespace ClassCli.Outline.TypeExpr

open Extraction (typing)
open Text

/-! ## Brackets -/

/-- How many brackets a text opens. -/
def opened (s : List Char) : Nat := s.countP fun c => c = '[' || c = '('

/-- How many brackets a text closes. -/
def closed (s : List Char) : Nat := s.countP fun c => c = ']' || c = ')'

/-- Behind a number of open brackets, a text closes no bracket that is not open, and has certain marks only
where a bracket is open. -/
structure Within (marks : List Char) (depth : Nat) (s : List Char) : Prop where
  closed_le : ∀ front, front <+: s → closed front ≤ depth + opened front
  mark_lt : ∀ mark ∈ marks, ∀ front, front ++ [mark] <+: s → closed front < depth + opened front

/-- The brackets of a text are balanced, and it has certain marks only within them. -/
structure Enclosed (marks : List Char) (s : List Char) : Prop where
  within : Within marks 0 s
  balanced : closed s = opened s

variable {marks : List Char} {depth : Nat} {c : Char} {s : List Char}

theorem opened_append (front back : List Char) : opened (front ++ back) = opened front + opened back :=
  List.countP_append

theorem closed_append (front back : List Char) : closed (front ++ back) = closed front + closed back :=
  List.countP_append

theorem opened_cons (c : Char) (s : List Char) : opened (c :: s) = opened [c] + opened s := opened_append [c] s

theorem closed_cons (c : Char) (s : List Char) : closed (c :: s) = closed [c] + closed s := closed_append [c] s

theorem within_nil (marks : List Char) (depth : Nat) : Within marks depth [] := by
  constructor
  · intro front hfront
    obtain rfl := List.prefix_nil.mp hfront
    exact Nat.zero_le _
  · intro mark _ front hfront
    simp at hfront

/-- Each character of a text changes the number of open brackets for those behind it. -/
theorem within_cons_iff :
    Within marks depth (c :: s) ↔ (c ∈ marks → 0 < depth) ∧ closed [c] ≤ depth + opened [c]
      ∧ Within marks (depth + opened [c] - closed [c]) s := by
  constructor
  · intro h
    have hfirst : closed [c] ≤ depth + opened [c] := h.closed_le [c] (List.prefix_append [c] s)
    refine ⟨?_, hfirst, ?_, ?_⟩
    · intro hmark
      simpa [closed, opened] using h.mark_lt c hmark [] (List.prefix_append [c] s)
    · intro front hfront
      have hle := h.closed_le (c :: front) (List.cons_prefix_cons.mpr ⟨rfl, hfront⟩)
      rw [closed_cons, opened_cons] at hle
      omega
    · intro mark hmark front hfront
      have hlt := h.mark_lt mark hmark (c :: front) (List.cons_prefix_cons.mpr ⟨rfl, hfront⟩)
      rw [closed_cons, opened_cons] at hlt
      omega
  · intro h
    obtain ⟨hmark, hfirst, hrest⟩ := h
    constructor
    · intro front hfront
      cases front with
      | nil => exact Nat.zero_le _
      | cons d front =>
        obtain ⟨rfl, hbehind⟩ := List.cons_prefix_cons.mp hfront
        have hle := hrest.closed_le front hbehind
        rw [closed_cons, opened_cons]
        omega
    · intro mark hmem front hfront
      cases front with
      | nil =>
        obtain ⟨rfl, -⟩ := List.cons_prefix_cons.mp hfront
        simpa [closed, opened] using hmark hmem
      | cons d front =>
        obtain ⟨rfl, hbehind⟩ := List.cons_prefix_cons.mp hfront
        have hlt := hrest.mark_lt mark hmem front hbehind
        rw [closed_cons, opened_cons]
        omega

instance decidableWithin (marks : List Char) : ∀ depth s, Decidable (Within marks depth s)
  | depth, [] => isTrue (within_nil marks depth)
  | depth, c :: s =>
    have := decidableWithin marks (depth + opened [c] - closed [c]) s
    decidable_of_iff _ within_cons_iff.symm

theorem enclosed_iff : Enclosed marks s ↔ Within marks 0 s ∧ closed s = opened s :=
  ⟨fun h => ⟨h.within, h.balanced⟩, fun h => ⟨h.1, h.2⟩⟩

instance (marks s : List Char) : Decidable (Enclosed marks s) := decidable_of_iff _ enclosed_iff.symm

theorem Within.append {front back : List Char} (hfront : Within marks depth front)
    (hback : Within marks (depth + opened front - closed front) back) : Within marks depth (front ++ back) := by
  induction front generalizing depth with
  | nil => simpa [closed, opened] using hback
  | cons c front ih =>
    obtain ⟨hmark, hfirst, hrest⟩ := within_cons_iff.mp hfront
    rw [List.cons_append, within_cons_iff]
    refine ⟨hmark, hfirst, ih hrest ?_⟩
    rw [closed_cons, opened_cons] at hback
    have hle := hrest.closed_le front List.prefix_rfl
    have hdepth : depth + opened [c] - closed [c] + opened front - closed front
        = depth + (opened [c] + opened front) - (closed [c] + closed front) := by omega
    rw [hdepth]
    exact hback

/-- Behind more open brackets everything holds all the more. -/
theorem Within.mono (h : Within marks depth s) {more : Nat} (hmore : depth ≤ more) : Within marks more s := by
  constructor
  · intro front hfront
    have hle := h.closed_le front hfront
    omega
  · intro mark hmark front hfront
    have hlt := h.mark_lt mark hmark front hfront
    omega

theorem Within.of_subset (h : Within marks depth s) {fewer : List Char} (hfewer : fewer ⊆ marks) :
    Within fewer depth s :=
  ⟨h.closed_le, fun mark hmark => h.mark_lt mark (hfewer hmark)⟩

theorem Enclosed.of_subset (h : Enclosed marks s) {fewer : List Char} (hfewer : fewer ⊆ marks) :
    Enclosed fewer s :=
  ⟨h.within.of_subset hfewer, h.balanced⟩

theorem Enclosed.append {front back : List Char} (hfront : Enclosed marks front) (hback : Enclosed marks back) :
    Enclosed marks (front ++ back) := by
  constructor
  · apply hfront.within.append
    rw [hfront.balanced, Nat.add_sub_cancel]
    exact hback.within
  · rw [closed_append, opened_append, hfront.balanced, hback.balanced]

/-- Square brackets enclose what does not close them. -/
theorem enclosed_square {inner : List Char} (hmarks : '[' ∉ marks) (h : Within marks 1 inner)
    (hbalanced : closed inner = opened inner) : Enclosed marks ('[' :: (inner ++ [']'])) := by
  constructor
  · rw [within_cons_iff]
    refine ⟨fun hmem => absurd hmem hmarks, Nat.zero_le 1, h.append ?_⟩
    rw [hbalanced, Nat.add_sub_cancel, within_cons_iff]
    exact ⟨fun _ => Nat.one_pos, Nat.le_refl 1, within_nil marks _⟩
  · have hpair : closed ['['] + closed [']'] = opened ['['] + opened [']'] := rfl
    rw [closed_cons, opened_cons, closed_append, opened_append, hbalanced]
    omega

/-- What has neither brackets nor marks is enclosed. -/
theorem enclosed_of_plain (h : ∀ c ∈ s, c ∉ marks ++ ['[', ']', '(', ')']) : Enclosed marks s := by
  have hclosed {t : List Char} (ht : t <+: s) : closed t = 0 := by
    rw [closed, List.countP_eq_zero]
    intro c hc
    have hplain := h c (ht.subset hc)
    simp_all
  have hopened : opened s = 0 := by
    rw [opened, List.countP_eq_zero]
    intro c hc
    have hplain := h c hc
    simp_all
  refine ⟨⟨?_, ?_⟩, ?_⟩
  · intro front hfront
    rw [hclosed hfront]
    exact Nat.zero_le _
  · intro mark hmark front hfront
    have hmem : mark ∈ s := hfront.subset (by simp)
    exact absurd (List.mem_append_left _ hmark) (h mark hmem)
  · rw [hclosed List.prefix_rfl, hopened]

/-! ## Pieces -/

section Pieces

variable {mark : Char}

/-- A character belongs to the piece around it unless it is a mark outside brackets. -/
theorem splitTopFrom_step (h : ¬(c = mark ∧ depth = 0)) (piece s : List Char) :
    splitTopFrom mark depth piece (c :: s)
      = splitTopFrom mark (depth + opened [c] - closed [c]) (c :: piece) s := by
  by_cases hopen : c = '[' ∨ c = '('
  · rcases hopen with rfl | rfl
    · rfl
    · rfl
  · by_cases hclose : c = ']' ∨ c = ')'
    · rcases hclose with rfl | rfl
      · rfl
      · rfl
    · simp_all [splitTopFrom, opened, closed]

/-- **What closes no more brackets than are open belongs to one piece**, if it has no mark outside them. -/
theorem splitTopFrom_within {s : List Char} (h : Within [mark] depth s) (piece rest : List Char) :
    splitTopFrom mark depth piece (s ++ rest)
      = splitTopFrom mark (depth + opened s - closed s) (s.reverse ++ piece) rest := by
  induction s generalizing depth piece with
  | nil => rfl
  | cons c s ih =>
    obtain ⟨hmark, hfirst, hrest⟩ := within_cons_iff.mp h
    have hstep : ¬(c = mark ∧ depth = 0) := by
      intro hcut
      have hpos := hmark (List.mem_singleton.mpr hcut.1)
      omega
    have hle := hrest.closed_le s List.prefix_rfl
    have hdepth : depth + opened [c] - closed [c] + opened s - closed s
        = depth + opened (c :: s) - closed (c :: s) := by
      rw [opened_cons c s, closed_cons c s]
      omega
    rw [List.cons_append, splitTopFrom_step hstep, ih hrest, hdepth, List.reverse_cons, List.append_assoc,
      List.singleton_append]

/-- An enclosed text belongs to one piece, however many brackets are open. -/
theorem splitTopFrom_enclosed (h : Enclosed [mark] s) (depth : Nat) (piece rest : List Char) :
    splitTopFrom mark depth piece (s ++ rest) = splitTopFrom mark depth (s.reverse ++ piece) rest := by
  rw [splitTopFrom_within (h.within.mono (Nat.zero_le depth)), h.balanced, Nat.add_sub_cancel]

theorem splitTop_enclosed (h : Enclosed [mark] s) : splitTop mark s = [trim s] := by
  have hsplit := splitTopFrom_enclosed h 0 [] []
  rw [List.append_nil] at hsplit
  rw [splitTop, hsplit]
  simp [splitTopFrom]

/-- An enclosed text in front of a mark is the first piece. -/
theorem splitTop_mark (hmark : mark ∉ ['[', ']', '(', ')']) (h : Enclosed [mark] s) (rest : List Char) :
    splitTop mark (s ++ mark :: rest) = trim s :: splitTop mark rest := by
  rw [splitTop, splitTopFrom_enclosed h]
  simp_all [splitTopFrom, splitTop]

/-! ## White space around pieces -/

theorem enclosed_of_blank {space : List Char} (hspace : blank space = true) (hmark : isBlank mark = false) :
    Enclosed [mark] space := by
  have hbrackets : ∀ c ∈ ['[', ']', '(', ')'], isBlank c = false := by simp [isBlank]
  have hvisible : ∀ c ∈ mark :: ['[', ']', '(', ')'], isBlank c = false :=
    List.forall_mem_cons.mpr ⟨hmark, hbrackets⟩
  apply enclosed_of_plain
  intro c hc hmem
  have hblank := List.all_eq_true.mp hspace c hc
  rw [hvisible c hmem] at hblank
  cases hblank

/-- White space at the start of the first piece is trimmed. -/
theorem map_trim_splitTopFrom_front {space : List Char} (hspace : blank space = true) (s : List Char) :
    ∀ depth piece, (splitTopFrom mark depth (piece ++ space.reverse) s).map trim
      = (splitTopFrom mark depth piece s).map trim := by
  have htrim (piece : List Char) : trim (piece ++ space.reverse).reverse = trim piece.reverse := by
    rw [List.reverse_append, List.reverse_reverse, trim_append_of_blank_left hspace]
  induction s with
  | nil =>
    intro depth piece
    simp only [splitTopFrom, List.map_singleton, htrim]
  | cons c s ih =>
    intro depth piece
    rcases splitTopFrom_cons mark depth c with ⟨depth', hcons⟩ | ⟨-, hcut⟩
    · rw [hcons, hcons, ← List.cons_append, ih]
    · rw [hcut, hcut, List.map_cons, List.map_cons, htrim]

/-- White space at the end of the last piece is trimmed. -/
theorem map_trim_splitTopFrom_back {space : List Char} (hspace : blank space = true)
    (hmark : isBlank mark = false) (s : List Char) :
    ∀ depth piece, (splitTopFrom mark depth piece (s ++ space)).map trim
      = (splitTopFrom mark depth piece s).map trim := by
  induction s with
  | nil =>
    intro depth piece
    have hsplit := splitTopFrom_enclosed (enclosed_of_blank hspace hmark) depth piece []
    rw [List.append_nil] at hsplit
    rw [List.nil_append, hsplit]
    simp only [splitTopFrom, List.map_singleton, List.reverse_append, List.reverse_reverse,
      trim_append_of_blank_right hspace]
  | cons c s ih =>
    intro depth piece
    rw [List.cons_append]
    rcases splitTopFrom_cons mark depth c with ⟨depth', hcons⟩ | ⟨-, hcut⟩
    · rw [hcons, hcons, ih]
    · rw [hcut, hcut, List.map_cons, List.map_cons, ih]

/-- **A text and what is left of it when it is trimmed have the same pieces.** -/
theorem splitTop_trim (hmark : isBlank mark = false) (s : List Char) :
    splitTop mark (trim s) = splitTop mark s := by
  obtain ⟨front, back, hfront, hback, hs⟩ := exists_append_trim s
  have hpieces : (splitTopFrom mark 0 front.reverse (trim s)).map trim
      = (splitTopFrom mark 0 [] (trim s)).map trim := map_trim_splitTopFrom_front hfront (trim s) 0 []
  conv => rhs; rw [hs]
  rw [splitTop, splitTop, splitTopFrom_enclosed (enclosed_of_blank hfront hmark), List.append_nil,
    map_trim_splitTopFrom_back hback hmark, hpieces]

end Pieces

/-! ## Reading as deep as the text is -/

theorem parsePlain_congr {parse parse' : List Char → TypeExpr} {s : List Char}
    (h : ∀ inner, inner.length < s.length → parse inner = parse' inner) :
    parsePlain parse s = parsePlain parse' s := by
  unfold parsePlain
  cases hsubscript : subscripted s with
  | none => rfl
  | some found =>
    obtain ⟨base, inner⟩ := found
    have hinner := length_lt_of_subscripted hsubscript
    refine congrArg (TypeExpr.subscript _) (List.map_congr_left fun piece hpiece => h piece ?_)
    have hpiece := List.mem_of_mem_filter hpiece
    have hlength := length_of_mem_splitTop hpiece
    have hcount := List.length_pos_of_mem hpiece
    omega

/-- One step of reading: a text is read without its quotes, by its only member, or by its name and arguments. -/
def readStep (parse : List Char → TypeExpr) (s : List Char) : TypeExpr :=
  match unquoted (trim s) with
  | some inner => parse inner
  | none =>
    if 2 ≤ (splitTop '|' s).length then
      match members s with
      | [member] => parse member
      | _ => .other (String.ofList (trim s))
    else parsePlain parse (trim s)

theorem parseTo_eq_readStep (depth : Nat) (s : List Char) :
    parseTo (depth + 1) s = readStep (parseTo depth) s := by
  have hmembers : members (trim s) = members s := by rw [members, members, splitTop_trim rfl]
  rw [parseTo_succ, hmembers, splitTop_trim rfl]
  rfl

/-- Only shorter texts are read on. -/
theorem readStep_congr {parse parse' : List Char → TypeExpr} {s : List Char}
    (h : ∀ inner, inner.length < s.length → parse inner = parse' inner) :
    readStep parse s = readStep parse' s := by
  have htrim := length_trim_le s
  unfold readStep
  cases hunquoted : unquoted (trim s) with
  | some inner =>
    have hlength := length_lt_of_unquoted hunquoted
    exact h inner (by omega)
  | none =>
    dsimp only
    split
    · match hfound : members s with
      | [] => rfl
      | [member] =>
        have hmem : member ∈ members s := by rw [hfound]; exact List.mem_singleton_self member
        have hlength := length_of_mem_splitTop (List.mem_of_mem_filter hmem)
        exact h member (by omega)
      | _ :: _ :: _ => rfl
    · exact parsePlain_congr fun inner hinner => h inner (by omega)

/-- The bound on the depth does not matter if it is greater than the text is long. -/
theorem parseTo_eq (depth : Nat) : ∀ (depth' : Nat) (s : List Char),
    s.length < depth → s.length < depth' → parseTo depth s = parseTo depth' s := by
  induction depth with
  | zero => omega
  | succ depth ih =>
    intro depth' s hdepth hdepth'
    obtain ⟨depth', rfl⟩ : ∃ n, depth' = n + 1 := ⟨depth' - 1, by omega⟩
    rw [parseTo_eq_readStep, parseTo_eq_readStep]
    exact readStep_congr fun inner hinner => ih depth' inner (by omega) (by omega)

/-- Reads a type as deep as its text is. -/
def read (s : List Char) : TypeExpr := parseTo (s.length + 1) s

theorem parse_eq_read (text : String) : parse text = read text.toList := rfl

/-- **A type is read step by step**, without a bound on the depth. -/
theorem read_eq (s : List Char) : read s = readStep read s := by
  rw [read, parseTo_eq_readStep]
  exact readStep_congr fun inner hinner => parseTo_eq _ _ inner (by omega) (by omega)

theorem read_trim (s : List Char) : read (trim s) = read s := by
  rw [read_eq, read_eq s, readStep, readStep, trim_trim, members, members, splitTop_trim rfl]

/-! ## Names with arguments -/

/-- What is read without its quotes stands between two equal ones. -/
theorem eq_of_unquoted {s inner : List Char} (h : unquoted s = some inner) :
    ∃ quote, (quote = '\x22' ∨ quote = '\x27') ∧ s = quote :: (inner ++ [quote]) := by
  have hbetween {quote : Char} (h : between quote s = some inner) : s = quote :: (inner ++ [quote]) := by
    obtain ⟨after, hafter, hinner⟩ := Option.bind_eq_some_iff.mp h
    rw [eq_append_of_afterStart hafter, eq_append_of_beforeEnd hinner, List.singleton_append]
  unfold unquoted at h
  split at h
  · next hdouble =>
    cases h
    exact ⟨_, Or.inl rfl, hbetween hdouble⟩
  · exact ⟨_, Or.inr rfl, hbetween h⟩

/-- Nothing is in quotes that starts or ends with another character. -/
theorem unquoted_eq_none {s : List Char} (h : s.head? = some c ∨ s.getLast? = some c)
    (hc : c ≠ '\x22' ∧ c ≠ '\x27') : unquoted s = none := by
  cases hunquoted : unquoted s with
  | none => rfl
  | some inner =>
    obtain ⟨quote, hquote, rfl⟩ := eq_of_unquoted hunquoted
    obtain rfl : quote = c := by
      rw [← List.cons_append, List.getLast?_concat, List.cons_append, List.head?_cons] at h
      rcases h with h | h
      · exact Option.some.inj h
      · exact Option.some.inj h
    rcases hquote with rfl | rfl
    · exact absurd rfl hc.1
    · exact absurd rfl hc.2

theorem edged_of_isDottedName {base : List Char} (h : isDottedName base = true) : Edged base := by
  apply edged_of_visible
  · rintro rfl
    cases h
  · intro c hc
    cases hblank : isBlank c with
    | false => rfl
    | true =>
      have hpart : isAsciiNamePart c = false := by
        rw [Bool.eq_false_iff]
        intro hpart
        rw [isBlank_of_isAsciiNamePart hpart] at hblank
        cases hblank
      have hpoint : c ≠ '.' := by
        rintro rfl
        cases hblank
      exact absurd hc (not_mem_of_isDottedName h hpart hpoint)

/-- A dotted name has no brackets, commas or bars. -/
theorem enclosed_of_isDottedName {base : List Char} (h : isDottedName base = true) : Enclosed [',', '|'] base := by
  have hmarks : ∀ mark ∈ [',', '|', '[', ']', '(', ')'], isAsciiNamePart mark = false ∧ mark ≠ '.' := by
    simp [isAsciiNamePart]
  apply enclosed_of_plain
  intro c hc hmem
  exact not_mem_of_isDottedName h (hmarks c hmem).1 (hmarks c hmem).2 hc

/-- A dotted name with enclosed arguments is read by its name and its arguments. -/
theorem read_subscript {base inner : List Char} (hbase : isDottedName base = true)
    (hinner : Within ['|'] 1 inner) (hbalanced : closed inner = opened inner) :
    read (base ++ '[' :: (inner ++ [']']))
      = .subscript (String.ofList base) (((splitTop ',' inner).filter (!·.isEmpty)).map read) := by
  have hedged : Edged (base ++ '[' :: (inner ++ [']'])) :=
    (edged_of_isDottedName hbase).append (t := [']']) ⟨⟨_, rfl, rfl⟩, _, rfl, rfl⟩ ('[' :: inner)
  have hunquoted : unquoted (base ++ '[' :: (inner ++ [']'])) = none := by
    refine unquoted_eq_none (Or.inr ?_) (by decide : ']' ≠ '\x22' ∧ ']' ≠ '\x27')
    rw [← List.cons_append, ← List.append_assoc, List.getLast?_concat]
  have hpiece : Enclosed ['|'] (base ++ '[' :: (inner ++ [']'])) :=
    ((enclosed_of_isDottedName hbase).of_subset (by simp)).append
      (enclosed_square (by decide) hinner hbalanced)
  have hsubscripted : subscripted (base ++ '[' :: (inner ++ [']'])) = some (base, inner) := by
    rw [subscripted, splitOnce_append (not_mem_of_isDottedName hbase (by decide) (by decide))]
    dsimp only
    rw [beforeEnd_append, (edged_of_isDottedName hbase).trim]
    exact if_pos hbase
  rw [read_eq, readStep, hedged.trim, hunquoted, splitTop_enclosed hpiece]
  dsimp only
  rw [if_neg (by simp), parsePlain, hsubscripted]

/-! ## Optional types -/

/-- The text of the type that has no value but `None`. -/
def noneText : List Char := ['N', 'o', 'n', 'e']

/-- A union with `None` has the type of its other member. Of `None` and `None` neither is a member, and `None`
alone gives no type. -/
theorem typing_read_union {s member : List Char} (hquotes : unquoted (trim s) = none)
    (hsplit : splitTop '|' s = [member, noneText] ∨ splitTop '|' s = [noneText, member]) :
    typing (read s) = typing (read member) := by
  have hlength : 2 ≤ (splitTop '|' s).length := by
    rcases hsplit with hsplit | hsplit
    · rw [hsplit]
      exact Nat.le_refl 2
    · rw [hsplit]
      exact Nat.le_refl 2
  have hmembers : members s = [member].filter (· != noneText) := by
    rcases hsplit with hsplit | hsplit
    · rw [members, hsplit]
      simp [List.filter_cons, noneText]
    · rw [members, hsplit]
      rfl
  rw [read_eq, readStep, hquotes]
  dsimp only
  rw [if_pos hlength, hmembers]
  by_cases hnone : member = noneText
  · have hother : typing (read noneText) = (none, none) := by decide +kernel
    rw [hnone, hother]
    rfl
  · rw [List.filter_cons_of_pos (by simpa using hnone), List.filter_nil]

/-- The argument of an optional type, if there is one, is all of its text. -/
theorem typing_optional {base : String} (hbase : lastPart base = "Optional") {s : List Char}
    (h : Enclosed [','] s) :
    typing (.subscript base (((splitTop ',' s).filter (!·.isEmpty)).map read)) = typing (read s) := by
  rw [splitTop_enclosed h, ← read_trim s]
  cases hempty : (trim s).isEmpty with
  | true =>
    rw [List.isEmpty_iff.mp hempty, List.filter_cons_of_neg (by simp), List.filter_nil, List.map_nil, typing,
      hbase]
    rfl
  | false =>
    rw [List.filter_cons_of_pos (by simp [hempty]), List.filter_nil, List.map_singleton, typing, hbase,
      if_pos rfl]

/-- An optional type in square brackets. -/
theorem typing_read_optional {base : List Char} (hdotted : isDottedName base = true)
    (hbase : lastPart (String.ofList base) = "Optional") {s : List Char} (h : Enclosed [',', '|'] s) :
    typing (read (base ++ '[' :: (s ++ [']']))) = typing (read s) := by
  have hbars : Within ['|'] 1 s := (h.within.mono (Nat.zero_le 1)).of_subset (by simp)
  rw [read_subscript hdotted hbars h.balanced]
  exact typing_optional hbase (h.of_subset (by simp))

/-- A union with `None` behind its other member. -/
theorem typing_read_union_left {s : List Char} (h : Enclosed ['|'] s) :
    typing (read (s ++ " | None".toList)) = typing (read s) := by
  have htext : s ++ " | None".toList = (s ++ [' ']) ++ '|' :: " None".toList := by simp
  have hlast : (s ++ " | None".toList).getLast? = some 'e' := by
    rw [List.getLast?_append]
    rfl
  have hquotes : unquoted (trim (s ++ " | None".toList)) = none :=
    unquoted_eq_none (Or.inr (getLast?_trim hlast rfl)) (by decide)
  have hspace : Enclosed ['|'] [' '] := by decide
  rw [typing_read_union hquotes (Or.inl ?_), read_trim]
  rw [htext, splitTop_mark (by decide) (h.append hspace), trim_append_of_blank_right rfl]
  rfl

/-- A union with `None` in front of its other member. -/
theorem typing_read_union_right {s : List Char} (h : Enclosed ['|'] s) :
    typing (read ("None | ".toList ++ s)) = typing (read s) := by
  have htext : "None | ".toList ++ s = "None ".toList ++ '|' :: ([' '] ++ s) := by simp
  have hquotes : unquoted (trim ("None | ".toList ++ s)) = none :=
    unquoted_eq_none (Or.inl (head?_trim rfl rfl)) (by decide : 'N' ≠ '\x22' ∧ 'N' ≠ '\x27')
  have hnone : Enclosed ['|'] "None ".toList := by decide
  have hspace : Enclosed ['|'] [' '] := by decide
  rw [typing_read_union hquotes (Or.inr ?_), read_trim]
  rw [htext, splitTop_mark (by decide) hnone, splitTop_enclosed (hspace.append h), trim_append_of_blank_left rfl]
  rfl

/-- **The spellings of an optional type agree.** A type whose brackets are balanced, and which has commas and
bars only within them, gives an argument the same type and multiplicity whether it is made optional or not, by
its name or as a union. -/
theorem typing_optional_spellings {text : String} (h : Enclosed [',', '|'] text.toList) :
    typing (parse ("Optional[" ++ text ++ "]")) = typing (parse text)
      ∧ typing (parse ("typing.Optional[" ++ text ++ "]")) = typing (parse text)
      ∧ typing (parse (text ++ " | None")) = typing (parse text)
      ∧ typing (parse ("None | " ++ text)) = typing (parse text) := by
  have hbars : Enclosed ['|'] text.toList := h.of_subset (by simp)
  refine ⟨?_, ?_, ?_, ?_⟩
  · have htext : ("Optional[" ++ text ++ "]").toList = "Optional".toList ++ '[' :: (text.toList ++ [']']) := by
      simp
    rw [parse_eq_read, htext]
    exact typing_read_optional (by decide) (by decide) h
  · have htext : ("typing.Optional[" ++ text ++ "]").toList
        = "typing.Optional".toList ++ '[' :: (text.toList ++ [']']) := by
      simp
    rw [parse_eq_read, htext]
    exact typing_read_optional (by decide) (by decide) h
  · rw [parse_eq_read, String.toList_append]
    exact typing_read_union_left hbars
  · rw [parse_eq_read, String.toList_append]
    exact typing_read_union_right hbars

/-- A type with other brackets, commas and bars within its own brackets. -/
def nestedType : String := "typing.List[Tuple[int, (str | None)]]"

/-- Its optional spellings are lists all the same. -/
theorem typing_optional_spellings_nested :
    typing (parse ("Optional[" ++ nestedType ++ "]")) = (none, some .list)
      ∧ typing (parse ("typing.Optional[" ++ nestedType ++ "]")) = (none, some .list)
      ∧ typing (parse (nestedType ++ " | None")) = (none, some .list)
      ∧ typing (parse ("None | " ++ nestedType)) = (none, some .list) := by
  have hlist : typing (parse nestedType) = (none, some .list) := by decide +kernel
  rw [← hlist]
  exact typing_optional_spellings (by decide +kernel)

end ClassCli.Outline.TypeExpr
