import ClassCli.Proofs.Extraction.Sources

/-!
# What a class can see

The markers on the methods of a class are looked up among the names that the statements in front of it
bind, in its own block and in the blocks around it. Statements behind the class do not count, and what is
bound in the body of a function stays there. So the module of a class does not change if something is
added behind it or done otherwise in a function that it does not stand in.

* **`Gap`** — an outline with the body of one function left open.
* **`recordAll_fill`**, **`methods_fill`** — what stands in the gap is not seen from outside.
* **`modulesOfAll_fill`** — walks find the same modules outside the gap.
* **`modules_of_scopeChain`** — what is found depends on the scope chain only.
-/

namespace ClassCli.Extraction

open Interface (Collection Module)
open Marker (Bindings)
open Outline (ClassHead Function Node)

/-! ## Outlines with a gap -/

/-- An outline with a gap, which is the body of a function. -/
inductive Gap where
  /-- The function whose body is the gap, between the statements of its block. -/
  | here (front : List Node) (head : Function) (back : List Node)
  | inClass (front : List Node) (head : ClassHead) (inner : Gap) (back : List Node)
  | inFunction (front : List Node) (head : Function) (inner : Gap) (back : List Node)
  | inCompound (front : List Node) (inner : Gap) (back : List Node)
  deriving Repr, Inhabited

namespace Gap

/-- The outline with certain statements in the gap. -/
def fill (statements : List Node) : Gap → List Node
  | here front head back => front ++ .functionDef head statements :: back
  | inClass front head inner back => front ++ .classDef head (inner.fill statements) :: back
  | inFunction front head inner back => front ++ .functionDef head (inner.fill statements) :: back
  | inCompound front inner back => front ++ .compound (inner.fill statements) :: back

/-- How many classes outside the gap come in front of it or around it. -/
def classesBefore : Gap → Nat
  | here front _ _ => (classesOfAll front).length
  | inClass front _ _ _ => (classesOfAll front).length + 1
  | inFunction front _ inner _ => (classesOfAll front).length + inner.classesBefore
  | inCompound front inner _ => (classesOfAll front).length + inner.classesBefore

/-- How many of the classes in the gap are visited: none if a class stands around it. -/
def classesWithin (statements : List Node) : Gap → Nat
  | here _ _ _ => (classesOfAll statements).length
  | inClass _ _ _ _ => 0
  | inFunction _ _ inner _ => inner.classesWithin statements
  | inCompound _ inner _ => inner.classesWithin statements

end Gap

variable {settings : Settings} {location : String}

/-- **Statements are gone through one after the other**, and nothing but a compound statement hands its
block on. So what stands in the gap has no part in it. -/
theorem Gap.foldl_fill {σ : Type} {step : σ → Node → σ}
    (hclass : ∀ state head body other,
      step state (.classDef head body) = step state (.classDef head other))
    (hfunction : ∀ state head body other,
      step state (.functionDef head body) = step state (.functionDef head other))
    (hcompound : ∀ state body, step state (.compound body) = body.foldl step state)
    (gap : Gap) (first second : List Node) :
    ∀ state, (gap.fill first).foldl step state = (gap.fill second).foldl step state := by
  induction gap with
  | here front head back =>
    intro state
    rw [Gap.fill, Gap.fill, List.foldl_append, List.foldl_append, List.foldl_cons, List.foldl_cons,
      hfunction _ _ first second]
  | inClass front head inner back ih =>
    intro state
    rw [Gap.fill, Gap.fill, List.foldl_append, List.foldl_append, List.foldl_cons, List.foldl_cons,
      hclass _ _ (inner.fill first) (inner.fill second)]
  | inFunction front head inner back ih =>
    intro state
    rw [Gap.fill, Gap.fill, List.foldl_append, List.foldl_append, List.foldl_cons, List.foldl_cons,
      hfunction _ _ (inner.fill first) (inner.fill second)]
  | inCompound front inner back ih =>
    intro state
    rw [Gap.fill, Gap.fill, List.foldl_append, List.foldl_append, List.foldl_cons, List.foldl_cons,
      hcompound, hcompound, ih]

/-- Statements bind what each of them binds, one after the other. -/
theorem recordAll_eq_foldl (nodes : List Node) :
    ∀ scope : Bindings, scope.recordAll nodes = nodes.foldl Bindings.record scope := by
  induction nodes with
  | nil =>
    intro scope
    rfl
  | cons node rest ih =>
    intro scope
    exact ih (scope.record node)

/-- **Nothing in the gap is bound outside it.** -/
theorem recordAll_fill (gap : Gap) (first second : List Node) (scope : Bindings) :
    scope.recordAll (gap.fill first) = scope.recordAll (gap.fill second) := by
  rw [recordAll_eq_foldl, recordAll_eq_foldl]
  apply Gap.foldl_fill
  · intro scope head body other
    rfl
  · intro scope head body other
    rfl
  · intro scope body
    exact recordAll_eq_foldl body scope

theorem addAllMethods_eq_foldl (nodes : List Node) :
    ∀ found, addAllMethods found nodes = nodes.foldl addMethods found := by
  induction nodes with
  | nil =>
    intro found
    rfl
  | cons node rest ih =>
    intro found
    exact ih (addMethods found node)

/-- **The body of a method changes nothing about its class.** -/
theorem methods_fill (gap : Gap) (first second : List Node) :
    methods (gap.fill first) = methods (gap.fill second) := by
  rw [methods, methods, addAllMethods_eq_foldl, addAllMethods_eq_foldl]
  apply Gap.foldl_fill
  · intro found head body other
    rfl
  · intro found head body other
    rfl
  · intro found body
    exact addAllMethods_eq_foldl body found

/-! ## Walks -/

/-- Two lists of modules are the same up to those of the classes in a gap. -/
def AgreeOutside (gap : Gap) (first second : List Node) (found found' : List Module) : Prop :=
  ∃ left right within within' : List Module,
    found = left ++ within ++ right ∧ found' = left ++ within' ++ right
      ∧ left.length = gap.classesBefore
      ∧ within.length = gap.classesWithin first
      ∧ within'.length = gap.classesWithin second

variable {scope after after' : Bindings} {found found' : List Module}

/-- After a walk everything is in scope that its statements bind. -/
theorem scope_of_modulesOfAll {nodes : List Node}
    (h : (modulesOfAll settings location scope nodes).run.value = .ok (found, after)) :
    after = scope.recordAll nodes := by
  obtain ⟨-, hresult⟩ := (modulesOfAll_eq_ok_iff nodes [] [] (found, after) rfl).mp h
  cases hresult
  rfl

/-- A walk finds as many modules as it visits classes. -/
theorem length_of_modulesOfAll {nodes : List Node}
    (h : (modulesOfAll settings location scope nodes).run.value = .ok (found, after)) :
    found.length = (classesOfAll nodes).length := by
  obtain ⟨-, hresult⟩ := (modulesOfAll_eq_ok_iff nodes [] [] (found, after) rfl).mp h
  cases hresult
  rw [← map_classesIn nodes [] [] rfl, List.length_map, List.length_map]

/-- **A walk goes through the first statements as if there were no others.** -/
theorem modulesOfAll_append_eq_ok (front back : List Node)
    (h : (modulesOfAll settings location scope (front ++ back)).run.value = .ok (found, after)) :
    ∃ leading trailing,
      (modulesOfAll settings location scope front).run.value = .ok (leading, scope.recordAll front)
        ∧ (modulesOfAll settings location (scope.recordAll front) back).run.value
            = .ok (trailing, after)
        ∧ found = leading ++ trailing := by
  obtain ⟨hdocumented, hresult⟩ :=
    (modulesOfAll_eq_ok_iff (front ++ back) [] [] (found, after) rfl).mp h
  rw [Outline.classesIn_append] at hdocumented hresult
  rw [List.map_append] at hresult
  obtain ⟨hfront, hback⟩ := List.forall_mem_append.mp hdocumented
  cases hresult
  refine ⟨_, _, (modulesOfAll_eq_ok_iff front [] [] _ rfl).mpr ⟨hfront, rfl⟩,
    (modulesOfAll_eq_ok_iff back [] front _ rfl).mpr ⟨hback, rfl⟩, rfl⟩

/-- A walk over a statement and others behind it. -/
theorem modulesOfAll_cons_eq_ok {node : Node} {rest : List Node}
    (h : (modulesOfAll settings location scope (node :: rest)).run.value = .ok (found, after)) :
    ∃ first others next,
      (modulesOf settings location scope node).run.value = .ok (first, next)
        ∧ (modulesOfAll settings location next rest).run.value = .ok (others, after)
        ∧ found = first ++ others := by
  rw [modulesOfAll] at h
  obtain ⟨⟨first, next⟩, hfirst, h⟩ := Attempt.value_bind_eq_ok.mp h
  obtain ⟨⟨others, last⟩, hothers, h⟩ := Attempt.value_bind_eq_ok.mp h
  cases h
  exact ⟨first, others, next, hfirst, hothers, rfl⟩

/-- Two walks that differ in one statement, which binds the same, differ in what they find there. -/
theorem modulesOfAll_around {front back : List Node} {node node' : Node}
    (h : (modulesOfAll settings location scope (front ++ node :: back)).run.value = .ok (found, after))
    (h' : (modulesOfAll settings location scope (front ++ node' :: back)).run.value
      = .ok (found', after'))
    (hbinds : ∀ scope : Bindings, scope.record node = scope.record node') :
    ∃ left inner inner' right next next',
      found = left ++ inner ++ right ∧ found' = left ++ inner' ++ right
        ∧ left.length = (classesOfAll front).length
        ∧ (modulesOf settings location (scope.recordAll front) node).run.value = .ok (inner, next)
        ∧ (modulesOf settings location (scope.recordAll front) node').run.value = .ok (inner', next') := by
  obtain ⟨left, rest, hleft, hrest, rfl⟩ := modulesOfAll_append_eq_ok front _ h
  obtain ⟨left', rest', hleft', hrest', rfl⟩ := modulesOfAll_append_eq_ok front _ h'
  cases hleft.symm.trans hleft'
  obtain ⟨alone, right, halone, hright, rfl⟩ := modulesOfAll_append_eq_ok [node] back hrest
  obtain ⟨alone', right', halone', hright', rfl⟩ := modulesOfAll_append_eq_ok [node'] back hrest'
  -- the same is in scope behind the two statements
  have hscope : (scope.recordAll front).recordAll [node'] = (scope.recordAll front).recordAll [node] :=
    (hbinds _).symm
  rw [hscope] at hright'
  cases hright.symm.trans hright'
  obtain ⟨inner, others, next, hinner, hothers, rfl⟩ := modulesOfAll_cons_eq_ok halone
  obtain ⟨inner', others', next', hinner', hothers', rfl⟩ := modulesOfAll_cons_eq_ok halone'
  -- nothing stands behind a statement that is alone
  cases hothers
  cases hothers'
  refine ⟨left, inner, inner', right, _, _, ?_, ?_, length_of_modulesOfAll hleft, hinner, hinner'⟩
  · rw [List.append_nil, List.append_assoc]
  · rw [List.append_nil, List.append_assoc]

/-- What agrees outside a gap still does with more modules around it. -/
theorem AgreeOutside.between {gap inner : Gap} {first second : List Node} {left right : List Module}
    (hbefore : gap.classesBefore = left.length + inner.classesBefore)
    (hwithin : ∀ statements, gap.classesWithin statements = inner.classesWithin statements)
    (h : AgreeOutside inner first second found found') :
    AgreeOutside gap first second (left ++ found ++ right) (left ++ found' ++ right) := by
  obtain ⟨left', right', within, within', rfl, rfl, hleft, hfirst, hsecond⟩ := h
  refine ⟨left ++ left', right' ++ right, within, within', ?_, ?_, ?_, ?_, ?_⟩
  · simp only [List.append_assoc]
  · simp only [List.append_assoc]
  · rw [List.length_append, hleft, hbefore]
  · rw [hfirst, hwithin]
  · rw [hsecond, hwithin]

/-- The classes of a function body are those that a walk over the body finds. -/
theorem modulesOf_functionDef_eq_ok {head : Function} {body : List Node}
    (h : (modulesOf settings location scope (.functionDef head body)).run.value = .ok (found, after)) :
    ∃ last, (modulesOfAll settings location scope body).run.value = .ok (found, last) := by
  rw [modulesOf] at h
  obtain ⟨⟨inside, last⟩, hinside, h⟩ := Attempt.value_bind_eq_ok.mp h
  cases h
  exact ⟨last, hinside⟩

/-- **Outside the gap two walks find the same modules.** -/
theorem modulesOfAll_fill (gap : Gap) {first second : List Node} :
    ∀ {scope after after' : Bindings} {found found' : List Module},
      (modulesOfAll settings location scope (gap.fill first)).run.value = .ok (found, after) →
      (modulesOfAll settings location scope (gap.fill second)).run.value = .ok (found', after') →
      AgreeOutside gap first second found found' := by
  induction gap with
  | here front head back =>
    intro scope after after' found found' h h'
    obtain ⟨left, within, within', right, _, _, rfl, rfl, hleft, hwithin, hwithin'⟩ :=
      modulesOfAll_around h h' fun _ => rfl
    obtain ⟨_, hwithin⟩ := modulesOf_functionDef_eq_ok hwithin
    obtain ⟨_, hwithin'⟩ := modulesOf_functionDef_eq_ok hwithin'
    exact ⟨left, right, within, within', rfl, rfl, hleft, length_of_modulesOfAll hwithin,
      length_of_modulesOfAll hwithin'⟩
  | inClass front head inner back ih =>
    intro scope after after' found found' h h'
    obtain ⟨left, one, one', right, _, _, rfl, rfl, hleft, hone, hone'⟩ :=
      modulesOfAll_around h h' fun _ => rfl
    rw [modulesOf] at hone hone'
    obtain ⟨m, hm, hone⟩ := Attempt.value_bind_eq_ok.mp hone
    obtain ⟨m', hm', hone'⟩ := Attempt.value_bind_eq_ok.mp hone'
    cases hone
    cases hone'
    -- the two classes have the same methods
    have hsame : moduleOf settings (scope.recordAll front) location head (inner.fill second)
        = moduleOf settings (scope.recordAll front) location head (inner.fill first) := by
      rw [moduleOf, moduleOf, methods_fill inner second first]
    rw [hsame] at hm'
    cases hm.symm.trans hm'
    refine ⟨left ++ [m], right, [], [], ?_, ?_, ?_, rfl, rfl⟩
    · rw [List.append_nil]
    · rw [List.append_nil]
    · rw [List.length_append, hleft]
      rfl
  | inFunction front head inner back ih =>
    intro scope after after' found found' h h'
    obtain ⟨left, within, within', right, _, _, rfl, rfl, hleft, hwithin, hwithin'⟩ :=
      modulesOfAll_around h h' fun _ => rfl
    obtain ⟨_, hwithin⟩ := modulesOf_functionDef_eq_ok hwithin
    obtain ⟨_, hwithin'⟩ := modulesOf_functionDef_eq_ok hwithin'
    apply (ih hwithin hwithin').between
    · rw [hleft]
      rfl
    · intro statements
      rfl
  | inCompound front inner back ih =>
    intro scope after after' found found' h h'
    obtain ⟨left, within, within', right, _, _, rfl, rfl, hleft, hwithin, hwithin'⟩ :=
      modulesOfAll_around h h' (recordAll_fill inner first second)
    rw [modulesOf] at hwithin hwithin'
    apply (ih hwithin hwithin').between
    · rw [hleft]
      rfl
    · intro statements
      rfl

/-! ## Extraction -/

/-- The classes of a statement come between those in front of it and those behind it. -/
theorem classesOfAll_around (front back : List Node) (node : Node) :
    classesOfAll (front ++ node :: back)
      = classesOfAll front ++ (classesOf node ++ classesOfAll back) := by
  induction front with
  | nil => rfl
  | cons first rest ih =>
    rw [List.cons_append, classesOfAll, classesOfAll, ih, List.append_assoc]

/-- If the same classes stand in the gap, then the classes of the outline have the same methods. -/
theorem map_methods_fill (gap : Gap) {first second : List Node}
    (h : classesOfAll first = classesOfAll second) :
    (classesOfAll (gap.fill first)).map (fun entry => methods entry.2)
      = (classesOfAll (gap.fill second)).map (fun entry => methods entry.2) := by
  induction gap with
  | here front head back =>
    rw [Gap.fill, Gap.fill, classesOfAll_around, classesOfAll_around, classesOf, classesOf, h]
  | inClass front head inner back ih =>
    have hsame := methods_fill inner first second
    rw [Gap.fill, Gap.fill, classesOfAll_around, classesOfAll_around, classesOf, classesOf]
    simp only [List.map_append, List.map_cons, List.map_nil, hsame]
  | inFunction front head inner back ih =>
    rw [Gap.fill, Gap.fill, classesOfAll_around, classesOfAll_around, classesOf, classesOf]
    simp only [List.map_append, ih]
  | inCompound front inner back ih =>
    rw [Gap.fill, Gap.fill, classesOfAll_around, classesOfAll_around, classesOf, classesOf]
    simp only [List.map_append, ih]

/-- Extraction succeeds exactly if strict mode has nothing to say against the methods of the classes that
it visits. -/
theorem exists_extract_eq_ok_iff (collection : Collection) (outline : List Node) :
    (∃ result, (extract settings collection outline location).run.value = .ok result)
      ↔ ∀ found ∈ (classesOfAll outline).map (fun entry => methods entry.2),
          ∀ f ∈ found.values, Exposed f.name → Documented settings f := by
  rw [← map_classesIn outline [] [] rfl, List.map_map, List.forall_mem_map]
  constructor
  · rintro ⟨result, h⟩
    exact (extract_eq_ok_iff.mp h).1
  · intro h
    exact ⟨⟨collection.modules ++ _⟩, extract_eq_ok_iff.mpr ⟨h, rfl⟩⟩

/-- The modules found are those of a walk that starts with nothing in scope. -/
theorem modulesOfAll_of_extract {collection result : Collection} {outline : List Node}
    (h : (extract settings collection outline location).run.value = .ok result) :
    ∃ found after, (modulesOfAll settings location {} outline).run.value = .ok (found, after)
      ∧ result = ⟨collection.modules ++ found⟩ := by
  obtain ⟨⟨found, after⟩, hfound, h⟩ := Attempt.value_bind_eq_ok.mp h
  cases h
  exact ⟨found, after, hfound, rfl⟩

/-- **Markers are looked up in the scope chain.** The modules of the first statements of an outline do not
depend on those behind them. What is done in one function changes nothing about the modules of the classes
that do not stand in it, nor, if it holds the same classes, whether extraction succeeds. And after any
statements exactly that is in scope which they bind, one after the other. -/
theorem modules_of_scopeChain (settings : Settings) (location : String) (collection : Collection) :
    (∀ front back result,
      (extract settings collection (front ++ back) location).run.value = .ok result →
      ∃ leading trailing, (extract settings collection front location).run.value = .ok leading
        ∧ result.modules = leading.modules ++ trailing
        ∧ trailing.length = (classesOfAll back).length)
    ∧ (∀ gap first second result result',
      (extract settings collection (Gap.fill first gap) location).run.value = .ok result →
      (extract settings collection (Gap.fill second gap) location).run.value = .ok result' →
      ∃ found found', result.modules = collection.modules ++ found
        ∧ result'.modules = collection.modules ++ found'
        ∧ AgreeOutside gap first second found found')
    ∧ (∀ gap first second, classesOfAll first = classesOfAll second →
      ((∃ result, (extract settings collection (Gap.fill first gap) location).run.value = .ok result)
        ↔ ∃ result, (extract settings collection (Gap.fill second gap) location).run.value = .ok result))
    ∧ (∀ scope nodes found after,
      (modulesOfAll settings location scope nodes).run.value = .ok (found, after) →
      after = nodes.foldl Bindings.record scope) := by
  refine ⟨?_, ?_, ?_, ?_⟩
  · intro front back result h
    obtain ⟨found, after, hfound, rfl⟩ := modulesOfAll_of_extract h
    obtain ⟨leading, trailing, hleading, htrailing, rfl⟩ := modulesOfAll_append_eq_ok front back hfound
    refine ⟨⟨collection.modules ++ leading⟩, trailing,
      Attempt.value_bind_eq_ok.mpr ⟨_, hleading, rfl⟩, ?_, length_of_modulesOfAll htrailing⟩
    exact (List.append_assoc _ _ _).symm
  · intro gap first second result result' h h'
    obtain ⟨found, after, hfound, rfl⟩ := modulesOfAll_of_extract h
    obtain ⟨found', after', hfound', rfl⟩ := modulesOfAll_of_extract h'
    exact ⟨found, found', rfl, rfl, modulesOfAll_fill gap hfound hfound'⟩
  · intro gap first second h
    rw [exists_extract_eq_ok_iff, exists_extract_eq_ok_iff, map_methods_fill gap h]
  · intro scope nodes found after h
    rw [scope_of_modulesOfAll h]
    exact recordAll_eq_foldl nodes scope

/-- A class with one method, which has a certain decorator. -/
def classWith (name : String) (decorator : Outline.Expr) : Node :=
  .classDef ⟨name, [], none, 1⟩ [.functionDef { plainFunction "run" with decorators := [decorator] } []]

/-- A function between two classes whose methods have a marker. -/
def studio : Gap :=
  .here [.importFrom Marker.defaultNamespace [⟨Marker.hydraName, none⟩] false,
      classWith "First" (.name Marker.hydraName)]
    (plainFunction "setup") [classWith "Last" (.name Marker.hydraName)]

/-- A function that hides the marker, and a class that sees it. -/
def obscured : List Node :=
  [.functionDef (plainFunction Marker.hydraName) [], classWith "Inner" (.name Marker.hydraName)]

/-- The classes around a function have their markers, whatever the function hides. -/
theorem modules_of_scopeChain_studio :
    ∃ result result',
      (extract {} {} (studio.fill obscured) "studio.py").run.value = .ok result
        ∧ (extract {} {} (studio.fill []) "studio.py").run.value = .ok result'
        ∧ AgreeOutside studio obscured [] result.modules result'.modules
        ∧ result.modules.map (fun m => (m.name, m.commands.map fun c => c.flags.map (·.name)))
          = [("First", [[Marker.hydraName]]), ("Inner", [[]]), ("Last", [[Marker.hydraName]])] := by
  have hstrict : ({} : Settings).strict = false := rfl
  have hextract := fun outline => extract_of_not_strict hstrict {} outline "studio.py"
  obtain ⟨-, hgap, -, -⟩ := modules_of_scopeChain {} "studio.py" {}
  obtain ⟨found, found', hfound, hfound', hagree⟩ := hgap studio obscured [] _ _
    (hextract (studio.fill obscured)) (hextract (studio.fill []))
  refine ⟨_, _, hextract _, hextract _, ?_, ?_⟩
  · rw [hfound, hfound']
    exact hagree
  · decide +kernel

end ClassCli.Extraction
