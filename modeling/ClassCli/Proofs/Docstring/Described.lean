import ClassCli.Docstring.Convention
import ClassCli.Docstring.Help
import ClassCli.Proofs.Entries
import ClassCli.Proofs.Text.OneLiners

/-!
# What docstrings describe

Whatever a docstring holds, the parameters that it describes have different names, and what it says about
them stands on one line without white space at its edges; it may be empty. The summary is never empty. The
texts about the parameters of a function are taken out of what its docstring describes; what is left follows
them in its own order.

* **`Collected`** — entries under different names with compact texts.
* **`collected_documentedArgs`** — the described parameters, in every convention.
* **`oneLiner_of_summaryLine?`** — the summary line, in every convention.
* **`takeHelp_snd`**, **`takeHelp_fst`** — what is left, and what has been taken.
* **`argumentHelp_complete`** — every parameter in order, then everything else that is described.
-/

namespace ClassCli.Docstring

open Text

/-! ## Collected texts -/

/-- Entries under different names with texts on one line, without white space at their edges. -/
structure Collected (entries : Entries String) : Prop where
  nodup : entries.keys.Nodup
  texts : ∀ entry ∈ entries, Compact entry.2.toList

namespace Collected

variable {entries : Entries String}

theorem nil : Collected [] := ⟨List.nodup_nil, List.forall_mem_nil _⟩

theorem put (h : Collected entries) (name : String) {text : String} (ht : Compact text.toList) :
    Collected (entries.put name text) := by
  refine ⟨Entries.nodup_keys_put h.nodup text, ?_⟩
  intro entry hentry
  rcases Entries.mem_put entry hentry with rfl | hentry
  · exact ht
  · exact h.texts entry hentry

theorem foldl_put {pairs : List (String × String)} (hpairs : ∀ pair ∈ pairs, Compact pair.2.toList)
    (h : Collected entries) :
    Collected (pairs.foldl (fun entries (name, text) => Entries.put name text entries) entries) := by
  induction pairs generalizing entries with
  | nil => exact h
  | cons pair rest ih =>
    rw [List.forall_mem_cons] at hpairs
    exact ih hpairs.2 (h.put pair.1 hpairs.1)

theorem ofPairs {pairs : List (String × String)} (h : ∀ pair ∈ pairs, Compact pair.2.toList) :
    Collected (Entries.ofPairs pairs) := foldl_put h nil

/-- The text under a name; there may be none. -/
theorem get? (h : Collected entries) {name text : String} (hget : entries.get? name = some text) :
    Compact text.toList := h.texts _ (Entries.mem_of_get?_eq_some hget)

end Collected

/-! ## Indented sections -/

namespace Indented

theorem subset_of_titled {titles : List String} {lines section_ : List (List Char)}
    (h : titled titles lines = some section_) : section_ ⊆ lines := by
  induction lines with
  | nil => cases h
  | cons line rest ih =>
    rw [titled] at h
    split at h
    · -- flush or deeper, a section is cut out of the lines below its title
      dsimp only at h
      split at h
      · cases h
        intro other ho
        have hmem := (List.takeWhile_sublist _).subset ho
        exact List.mem_cons_of_mem line ((List.dropWhile_suffix blank).subset hmem)
      · cases h
        intro other ho
        have hmem := List.mem_of_mem_filter ((List.takeWhile_sublist _).subset ho)
        exact List.mem_cons_of_mem line ((List.dropWhile_suffix blank).subset hmem)
    · exact fun other ho => List.mem_cons_of_mem line (ih h ho)

/-- Taking in a line keeps texts compact. -/
theorem collected_takeLine {base : Nat} {sofar : Entries String × Option String} (h : Collected sofar.1)
    {line : List Char} (hline : '\n' ∉ line) : Collected (takeLine base sofar line).1 := by
  obtain ⟨args, current⟩ := sofar
  rw [takeLine.eq_def]
  dsimp only
  split
  · -- the line opens an entry, whose description is a part of it
    rename_i head description hsplit
    have hparts : splitOnce ':' line = some (head, description) := by
      split at hsplit
      · exact hsplit
      · cases hsplit
    refine h.put _ ?_
    rw [String.toList_ofList]
    refine compact_trim fun hmem => hline ?_
    rw [eq_append_of_splitOnce hparts]
    exact List.mem_append_right _ (List.mem_cons_of_mem _ hmem)
  · cases current with
    | none => exact h
    | some name =>
      refine h.put _ ?_
      rw [String.toList_ofList]
      refine compact_joinWords ?_
      rw [List.forall_mem_cons, List.forall_mem_singleton]
      refine ⟨?_, hline⟩
      cases hget : args.get? name with
      | none => exact List.not_mem_nil
      | some text => exact (h.get? hget).unbroken

theorem collected_args {lines : List (List Char)} (h : ∀ line ∈ lines, '\n' ∉ line) :
    Collected (args lines) := by
  have hfold {base : Nat} {section_ : List (List Char)} (hsection : ∀ line ∈ section_, '\n' ∉ line)
      {sofar : Entries String × Option String} (hsofar : Collected sofar.1) :
      Collected (section_.foldl (takeLine base) sofar).1 := by
    induction section_ generalizing sofar with
    | nil => exact hsofar
    | cons line rest ih =>
      rw [List.forall_mem_cons] at hsection
      exact ih hsection.2 (collected_takeLine hsofar hsection.1)
  rw [args]
  split
  · exact Collected.nil
  · rename_i section_ hsection
    exact hfold (fun line hline => h line (subset_of_titled hsection hline)) Collected.nil

end Indented

/-! ## Tags -/

namespace Tagged

/-- What tags describe in lines is compact. -/
theorem compact_of_mem_gather {α : Type} {mark : Char} {tag? : List Char → Option (α × List Char)}
    (htag : ∀ line entry, '\n' ∉ line → tag? line = some entry → Compact entry.2)
    {lines : List (List Char)} (hlines : ∀ line ∈ lines, '\n' ∉ line) {opened : Bool}
    {found : List (α × List Char)} (hfound : ∀ entry ∈ found, Compact entry.2) :
    ∀ entry ∈ gather mark tag? opened found lines, Compact entry.2 := by
  induction lines generalizing opened found with
  | nil =>
    rw [gather]
    exact fun entry hentry => hfound entry (List.mem_reverse.mp hentry)
  | cons line rest ih =>
    rw [List.forall_mem_cons] at hlines
    have hline : '\n' ∉ trim line := fun hmem => hlines.1 (mem_of_mem_trim hmem)
    rw [gather.eq_def]
    dsimp only
    split
    · rename_i entry hentry
      exact ih hlines.2 (List.forall_mem_cons.mpr ⟨htag _ _ hline hentry, hfound⟩)
    · split
      · exact ih hlines.2 hfound
      · split
        · -- the line continues the last description
          rename_i tag text earlier
          rw [List.forall_mem_cons] at hfound
          refine ih hlines.2 (List.forall_mem_cons.mpr ⟨compact_joinWords ?_, hfound.2⟩)
          rw [List.forall_mem_cons, List.forall_mem_singleton]
          exact ⟨hfound.1.unbroken, hline⟩
        · exact ih hlines.2 hfound

theorem compact_of_param? {form : Form} {line : List Char} {entry : List Char × List Char}
    (hline : '\n' ∉ line) (h : param? form line = some entry) : Compact entry.2 := by
  rw [param?] at h
  split at h
  · rename_i c after hafter
    split at h
    · cases h
    · split at h
      · cases h
      · rename_i head description hsplit
        obtain ⟨name, -, rfl⟩ := Option.map_eq_some_iff.mp h
        refine compact_trim fun hmem => hline (mem_of_afterStart hafter _ (List.mem_cons_of_mem c ?_))
        rw [eq_append_of_splitOnce hsplit]
        exact List.mem_append_right _ (List.mem_cons_of_mem _ hmem)
  · cases h

theorem collected_args (form : Form) {lines : List (List Char)} (h : ∀ line ∈ lines, '\n' ∉ line) :
    Collected (args form lines) := by
  refine Collected.ofPairs ?_
  intro pair hpair
  obtain ⟨entry, hentry, rfl⟩ := List.mem_map.mp hpair
  rw [String.toList_ofList]
  exact compact_of_mem_gather (fun _ _ => compact_of_param?) h (List.forall_mem_nil _) entry hentry

end Tagged

/-! ## Underlined sections -/

namespace Underlined

theorem suffix_sectionBody (title : List Char) (lines : List (List Char)) :
    sectionBody title lines <:+ lines := by
  induction lines with
  | nil => exact List.suffix_refl _
  | cons line rest ih =>
    rw [sectionBody]
    split
    · exact (List.drop_suffix 1 rest).trans (List.suffix_cons line rest)
    · exact ih.trans (List.suffix_cons line rest)

/-- The lines about an entry are on one line each. -/
theorem unbroken_of_mem_gather {lines : List (List Char)} (hlines : ∀ line ∈ lines, '\n' ∉ line)
    {base : Option Nat} {found : List Entry} (hfound : ∀ entry ∈ found, ∀ line ∈ entry.body, '\n' ∉ line) :
    ∀ entry ∈ gather base found lines, ∀ line ∈ entry.body, '\n' ∉ line := by
  induction lines generalizing base found with
  | nil => exact hfound
  | cons line rest ih =>
    rw [List.forall_mem_cons] at hlines
    rw [gather.eq_def]
    dsimp only
    split
    · exact ih hlines.2 hfound
    · split
      · exact hfound
      · split
        · exact hfound
        · split
          · exact ih hlines.2 (List.forall_mem_cons.mpr ⟨List.forall_mem_nil _, hfound⟩)
          · split
            · exact ih hlines.2 (List.forall_mem_nil _)
            · rename_i entry earlier
              rw [List.forall_mem_cons] at hfound
              refine ih hlines.2 (List.forall_mem_cons.mpr ⟨?_, hfound.2⟩)
              exact List.forall_mem_cons.mpr
                ⟨fun hmem => hlines.1 (mem_of_mem_trim hmem), hfound.1⟩

theorem collected_args {lines : List (List Char)} (h : ∀ line ∈ lines, '\n' ∉ line) :
    Collected (args lines) := by
  refine Collected.ofPairs ?_
  intro pair hpair
  obtain ⟨entry, hentry, hpair⟩ := List.mem_flatMap.mp hpair
  obtain ⟨name, -, rfl⟩ := List.mem_map.mp hpair
  obtain ⟨found, hfound, rfl⟩ := List.mem_map.mp hentry
  have hbody : ∀ line ∈ found.body, '\n' ∉ line := unbroken_of_mem_gather
    (fun line hline => h line ((suffix_sectionBody "Parameters".toList lines).subset hline))
    (List.forall_mem_nil _) found (List.mem_reverse.mp hfound)
  rw [String.toList_ofList]
  exact compact_joinWords fun line hline => hbody line (List.mem_reverse.mp hline)

end Underlined

/-! ## All conventions -/

/-- **The described parameters** have different names, and each text stands on one line. -/
theorem collected_documentedArgs (convention : Convention) (doc : String) :
    Collected (convention.documentedArgs doc) := by
  have hlines : ∀ line ∈ lines doc.toList, '\n' ∉ line := fun line hline => unbroken_of_mem_lines hline
  unfold Convention.documentedArgs
  cases convention with
  | google => exact Indented.collected_args hlines
  | epytext | rest => exact Tagged.collected_args _ hlines
  | numpydoc => exact Underlined.collected_args hlines

theorem trim_ne_nil {line : List Char} (h : blank line = false) : trim line ≠ [] := (edged_trim h).ne_nil

/-- A summary is a line of the docstring that holds something, trimmed. -/
theorem exists_line_of_summaryLine? {convention : Convention} {doc summary : String}
    (h : convention.summaryLine? doc = some summary) :
    ∃ line ∈ lines doc.toList, trim line ≠ [] ∧ summary = String.ofList (trim line) := by
  have hfirst {mark : Option Char} {found : List Char}
      (hfound : Convention.firstLine? mark (lines doc.toList) = some found) :
      ∃ line ∈ lines doc.toList, trim line ≠ [] ∧ found = trim line := by
    obtain ⟨line, hline, rfl⟩ := List.mem_map.mp (List.mem_of_find?_eq_some hfound)
    have htest := List.find?_some hfound
    rw [Bool.and_eq_true, Bool.not_eq_true', List.isEmpty_eq_false_iff] at htest
    exact ⟨line, hline, htest.1, rfl⟩
  have hunderlined {others : List (List Char)} {found : List Char}
      (hfound : Underlined.summary? others = some found) :
      ∃ line ∈ others, trim line ≠ [] ∧ found = trim line := by
    induction others with
    | nil => cases hfound
    | cons line rest ih =>
      rw [Underlined.summary?] at hfound
      split at hfound
      · rename_i htest
        cases hfound
        rw [Bool.and_eq_true, Bool.and_eq_true, Bool.not_eq_true'] at htest
        exact ⟨line, List.mem_cons_self, trim_ne_nil htest.1.1, rfl⟩
      · obtain ⟨other, ho, hother⟩ := ih hfound
        exact ⟨other, List.mem_cons_of_mem line ho, hother⟩
  obtain ⟨found, hfound, rfl⟩ := Option.map_eq_some_iff.mp h
  have hline : ∃ line ∈ lines doc.toList, trim line ≠ [] ∧ found = trim line := by
    cases convention with
    | google | epytext | rest => exact hfirst hfound
    | numpydoc => exact hunderlined hfound
  obtain ⟨line, hmem, hne, rfl⟩ := hline
  exact ⟨line, hmem, hne, rfl⟩

/-- **The summary of a docstring** says something on one line. -/
theorem oneLiner_of_summaryLine? {convention : Convention} {doc summary : String}
    (h : convention.summaryLine? doc = some summary) : OneLiner summary := by
  obtain ⟨line, hline, hne, rfl⟩ := exists_line_of_summaryLine? h
  refine oneLiner_of_compact ?_ ?_
  · rw [String.toList_ofList]
    exact compact_trim (unbroken_of_mem_lines hline)
  · simpa using hne

/-! ## Texts about arguments -/

open Outline (Function)
open Text

/-- What is said about a parameter: its text, or the filler if there is none or it is empty. -/
def textAbout (documented : Entries String) (name : String) : String :=
  ((documented.get? name).filter (· ≠ "")).getD noDocumentation

/-- What the docstring of a function describes; nothing if there is none. -/
def described (convention : Convention) (f : Function) : Entries String :=
  (f.docstring.map convention.documentedArgs).getD []

theorem orFiller_eq (text : Option String) : orFiller text = (text.filter (· ≠ "")).getD noDocumentation := by
  cases text with
  | none => rfl
  | some text =>
    rw [orFiller, Option.filter_some]
    by_cases h : text = ""
    · rw [h]
      rfl
    · rw [if_neg (mt String.isEmpty_iff.mp h), if_pos (decide_eq_true h), Option.getD_some]

theorem textAbout_remove {name other : String} (h : other ≠ name) (documented : Entries String) :
    textAbout (documented.remove name) other = textAbout documented other := by
  rw [textAbout, Entries.get?_remove_of_ne h, textAbout]

/-- **What is left** is described and is no parameter. -/
theorem takeHelp_snd (names : List String) (help documented : Entries String) :
    (takeHelp names help documented).2 = documented.filter (·.1 ∉ names) := by
  induction names generalizing help documented with
  | nil => simp [takeHelp]
  | cons name rest ih =>
    rw [takeHelp, ih, Entries.remove, List.filter_filter]
    refine List.filter_congr fun entry _ => ?_
    by_cases h : entry.1 = name <;> simp [h]

/-- **What has been taken**, if no parameter comes twice. -/
theorem takeHelp_fst {names : List String} (help : Entries String) (h : (help.keys ++ names).Nodup)
    (documented : Entries String) :
    (takeHelp names help documented).1 = help ++ names.map fun name => (name, textAbout documented name) := by
  induction names generalizing help documented with
  | nil => exact (List.append_nil help).symm
  | cons name rest ih =>
    have hnew : name ∉ help.keys := fun hmem => List.disjoint_of_nodup_append h hmem List.mem_cons_self
    have hrest : name ∉ rest := (List.nodup_cons.mp (List.Nodup.of_append_right h)).1
    have hkeys : ((help ++ [(name, textAbout documented name)]).keys ++ rest).Nodup := by
      rw [Entries.keys, List.map_append, List.map_singleton, List.append_assoc]
      exact h
    rw [takeHelp, orFiller_eq, ← textAbout, Entries.put_of_not_mem hnew, ih _ hkeys, List.append_assoc, List.map_cons]
    -- taking a text away does not touch those of the other parameters
    have hsame : (rest.map fun other => (other, textAbout (documented.remove name) other)) =
        rest.map fun other => (other, textAbout documented other) := by
      refine List.map_congr_left fun other ho => ?_
      rw [textAbout_remove (ne_of_mem_of_not_mem ho hrest)]
    rw [hsame, List.singleton_append]

section Complete

variable {convention : Convention} {f : Function}

theorem nodup_described : (described convention f).keys.Nodup := by
  rw [described]
  cases f.docstring with
  | none => exact List.nodup_nil
  | some doc => exact (collected_documentedArgs convention doc).nodup

variable {names : List String} (hnames : names.Nodup)
include hnames

/-- The parameters and what else is described have different names. -/
theorem nodup_keys_help (documented : Entries String) (h : documented.keys.Nodup) :
    (Entries.keys ((names.map fun name => (name, textAbout documented name)) ++
      documented.filter (·.1 ∉ names))).Nodup := by
  have hfirst : (names.map fun name => (name, textAbout documented name)).map Prod.fst = names := by
    rw [List.map_map]
    exact List.map_id names
  have hleft : ((documented.filter (·.1 ∉ names)).map Prod.fst).Nodup :=
    h.sublist (List.filter_sublist.map Prod.fst)
  rw [Entries.keys, List.map_append, hfirst]
  refine hnames.append hleft ?_
  intro name hname hother
  obtain ⟨entry, hentry, rfl⟩ := List.mem_map.mp hother
  exact of_decide_eq_true (List.mem_filter.mp hentry).2 hname

variable (convention) in
/-- The texts of a function with parameters. -/
theorem argumentHelp_of_params (hparams : f.explicitParams.map (·.name) = names) (hne : names ≠ []) :
    argumentHelp convention f =
      (names.map fun name => (name, textAbout (described convention f) name)) ++
        (described convention f).filter (·.1 ∉ names) := by
  have hkeys := nodup_keys_help hnames (described convention f) nodup_described
  have hsome : ¬names.isEmpty = true := mt List.isEmpty_iff.mp hne
  unfold argumentHelp described at *
  rw [hparams, if_neg hsome]
  cases hdoc : f.docstring with
  | none =>
    rw [hdoc, Option.map_none, Option.getD_none, List.filter_nil, List.append_nil] at hkeys
    exact (Entries.ofPairs_of_nodup hkeys).trans (List.append_nil _).symm
  | some doc =>
    rw [hdoc, Option.map_some, Option.getD_some] at hkeys
    have htaken := takeHelp_fst [] hnames (convention.documentedArgs doc)
    have hleft := takeHelp_snd names [] (convention.documentedArgs doc)
    rw [List.nil_append] at htaken
    rw [← htaken, ← hleft] at hkeys
    rw [Option.map_some, Option.getD_some, ← htaken, ← hleft]
    exact Entries.foldl_put hkeys

end Complete

/-- **Every parameter has a text**, in the order of the signature: what the docstring says about it, or the
filler. Whatever else the docstring describes follows as it stands there. -/
theorem argumentHelp_complete (convention : Convention) (f : Function)
    (h : (f.explicitParams.map (·.name)).Nodup) :
    argumentHelp convention f =
        (if f.explicitParams.isEmpty then []
        else (f.explicitParams.map fun param => (param.name, textAbout (described convention f) param.name)) ++
          (described convention f).filter (·.1 ∉ f.explicitParams.map (·.name))) ∧
      (argumentHelp convention f).keys.Nodup ∧ (described convention f).keys.Nodup := by
  cases hparams : f.explicitParams with
  | nil =>
    have hnone : argumentHelp convention f = [] := by
      rw [argumentHelp, hparams]
      rfl
    rw [hnone]
    exact ⟨rfl, List.nodup_nil, nodup_described⟩
  | cons first rest =>
    have hne : f.explicitParams.map (·.name) ≠ [] := by
      rw [hparams]
      exact List.cons_ne_nil _ _
    have hhelp := argumentHelp_of_params convention h rfl hne
    refine ⟨?_, ?_, nodup_described⟩
    · rw [hhelp, hparams, List.map_map]
      rfl
    · rw [hhelp]
      exact nodup_keys_help h _ nodup_described

/-- A method whose docstring says something about one of two parameters, nothing behind the colon of the
other, and something about a name that is no parameter. -/
def copyMethod : Function where
  name := "copy"
  parameters := { args := [⟨"self", none⟩, ⟨"source", none⟩, ⟨"target", none⟩] }
  decorators := []
  returns := none
  docstring := some "Copies.\n\nArgs:\n    mode: how\n    source: from where\n    target:\n"
  line := 1

theorem argumentHelp_complete_copy :
    (copyMethod.explicitParams.map (·.name)).Nodup ∧
      argumentHelp .google copyMethod =
        [("source", "from where"), ("target", noDocumentation), ("mode", "how")] := by
  refine ⟨by decide, ?_⟩
  rw [(argumentHelp_complete .google copyMethod (by decide)).1]
  decide +kernel

end ClassCli.Docstring
