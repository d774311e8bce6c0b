import Mathlib.Data.List.TakeWhile
import ClassCli.Proofs.Extraction.Sources
import ClassCli.Proofs.Marker.LastBinding

/-!
# Names that a class body binds

Within a class body a name means what an earlier statement of the body bound it to, and only otherwise what
it means around the class. Extraction looks up the decorators of all methods among the names around the
class, though. So a marker of the surroundings whose name the body binds to something else still takes
effect: such a decorator is ignored exactly if it has no effect around the class already.

* **`markerOf?_congr`** — a bare name means the same in all scopes that bind it to the same.
* **`isHidden`** — whether the class body binds the name of a decorator to something else than a marker.
* **`hidden_ignored_iff`** — when a hidden decorator is ignored.
* **`hidden_not_ignored`** — a method of the same class does not keep a marker from taking effect.
-/

namespace ClassCli.Extraction

open Interface (Collection Command)
open Marker (Bindings Registry callee flag? markerOf?)
open Outline (ClassPlace Expr Function Node Place bodyFunctions outerClasses placesAll)

/-! ## Bare names -/

/-- The bare name that a decorator consists of, or that it calls. -/
def bareName? (decorator : Expr) : Option String :=
  match callee decorator with
  | .name name => if name.toList.contains '.' then none else some name
  | _ => none

theorem firstPart_of_no_point {name : String} (h : name.toList.contains '.' = false) :
    Bindings.firstPart name = name := by
  have hall : name.toList.takeWhile (· != '.') = name.toList := by
    apply List.takeWhile_eq_self_iff.mpr
    intro c hc
    apply bne_iff_ne.mpr
    rintro rfl
    rw [List.contains_iff_mem.mpr hc] at h
    cases h
  rw [Bindings.firstPart, hall, String.ofList_toList]

/-- **A bare name that is bound means the same in all scopes that bind it to the same.** -/
theorem markerOf?_congr {inner scope : Bindings} {registry : Registry} {decorator : Expr} {name : String}
    (hname : bareName? decorator = some name) (hbound : inner.isBound name = true)
    (h : Entries.get? name scope.origins = Entries.get? name inner.origins) :
    markerOf? scope registry decorator = markerOf? inner registry decorator := by
  unfold bareName? at hname
  split at hname
  · rename_i text hcallee
    split at hname
    · cases hname
    · rename_i hpoint
      cases hname
      have hfirst := firstPart_of_no_point (Bool.eq_false_iff.mpr hpoint)
      have hqualify : scope.qualify? name = inner.qualify? name := by
        rw [Bindings.qualify?, Bindings.qualify?, hfirst, h]
      have hscope : scope.isBound name = inner.isBound name := by
        rw [Bindings.isBound, Bindings.isBound, Entries.has, Entries.has, h]
      rw [markerOf?, markerOf?, hcallee, Expr.dotted?]
      dsimp only
      rw [hqualify, hscope, hbound, Bool.not_true, Bool.and_false, Bool.false_and, Bool.false_and]
  · cases hname

/-! ## Hidden decorators -/

/-- Whether certain statements bind the bare name of a decorator, and not to a marker. -/
def isHidden (registry : Registry) (before : List Node) (decorator : Expr) : Bool :=
  (bareName? decorator).any fun name =>
    (Bindings.recordAll {} before).isBound name
      && (markerOf? (Bindings.recordAll {} before) registry decorator).isNone

/-- **Looked up behind the statements that hide it, a decorator is no marker**, whatever else is in
scope. -/
theorem markerOf?_of_isHidden {registry : Registry} {before : List Node} {decorator : Expr}
    (h : isHidden registry before decorator = true) (scope : Bindings) :
    markerOf? (scope.recordAll before) registry decorator = none := by
  obtain ⟨name, hname, h⟩ := (Option.any_eq_true _ _).mp h
  obtain ⟨hbound, hnone⟩ := Bool.and_eq_true_iff.mp h
  have hsame : Entries.get? name (scope.recordAll before).origins
      = Entries.get? name (Bindings.recordAll {} before).origins := by
    obtain ⟨origin, horigin⟩ := Option.isSome_iff_exists.mp hbound
    rw [Marker.get?_recordAll, horigin]
    rfl
  rw [markerOf?_congr hname hbound hsame]
  exact Option.isNone_iff_eq_none.mp hnone

/-- A place of a class body has the last function of its name. -/
def DefinesLast (body : List Node) (place : Place) (f : Function) : Prop :=
  ∃ earlier later, placesAll [] [] body = earlier ++ place :: later ∧ place.method? = some f
    ∧ ∀ other ∈ later, ∀ g, other.method? = some g → g.name ≠ f.name

theorem bodyFunctions_of_definesLast {body : List Node} {place : Place} {f : Function}
    (h : DefinesLast body place f) :
    ∃ earlier later, bodyFunctions body = earlier ++ f :: later ∧ ∀ g ∈ later, g.name ≠ f.name := by
  obtain ⟨earlier, later, hplaces, hplace, hlater⟩ := h
  refine ⟨earlier.filterMap Place.method?, later.filterMap Place.method?, ?_, ?_⟩
  · rw [bodyFunctions, Outline.functionsIn, hplaces, List.filterMap_append,
      List.filterMap_cons_some hplace]
  · intro g hg
    obtain ⟨other, hother, hmethod⟩ := List.mem_filterMap.mp hg
    exact hlater other hother g hmethod

theorem lastFunction?_of_definesLast {body : List Node} {place : Place} {f : Function}
    (h : DefinesLast body place f) : lastFunction? body f.name = some f := by
  obtain ⟨earlier, later, hfunctions, hlater⟩ := bodyFunctions_of_definesLast h
  rw [lastFunction?, hfunctions, List.findRev?_eq_find?_reverse, List.reverse_append,
    List.reverse_cons, List.append_assoc, List.find?_append]
  have hnone : later.reverse.find? (fun g => g.name == f.name) = none := by
    apply List.find?_eq_none.mpr
    intro g hg
    rw [beq_iff_eq]
    exact hlater g (List.mem_reverse.mp hg)
  rw [hnone, Option.none_or]
  exact List.find?_cons_of_pos (beq_self_eq_true f.name)

/-! ## What hidden decorators do -/

/-- The flags of certain decorators of a method. -/
def flagsOf (settings : Settings) (scope : Bindings) (method : String) (decorators : List Expr) :
    List Interface.Flag :=
  decorators.filterMap fun decorator => (flag? scope settings.registry method decorator).value

theorem flagsFrom_eq (settings : Settings) (scope : Bindings) (f : Function) :
    flagsFrom settings scope f = flagsOf settings scope f.name f.decorators :=
  List.filterMap_map ..

/-- The flags and the arguments of a command are those that its method has with certain of its
decorators. -/
def ReadsOnly (settings : Settings) (scope : Bindings) (f : Function) (decorators : List Expr)
    (command : Command) : Prop :=
  command.flags = flagsOf settings scope f.name decorators
    ∧ command.args = (arguments settings.convention f
        (settings.registry.attached (flagsOf settings scope f.name decorators))).value

/-- The flags of a method come in the order of its decorators. -/
theorem flagsFrom_around {settings : Settings} {scope : Bindings} {f : Function} {front back : List Expr}
    {decorator : Expr} (h : f.decorators = front ++ decorator :: back) :
    flagsFrom settings scope f = flagsOf settings scope f.name front
      ++ ((flag? scope settings.registry f.name decorator).value.toList
        ++ flagsOf settings scope f.name back) := by
  rw [flagsFrom_eq, h, flagsOf, List.filterMap_append, List.filterMap_cons]
  cases (flag? scope settings.registry f.name decorator).value with
  | none => rfl
  | some flag => rfl

/-- A decorator has no influence on the command of its method exactly if it gives no flag. -/
theorem readsOnly_others_iff {settings : Settings} {scope : Bindings} {f : Function}
    {front back : List Expr} {decorator : Expr} (h : f.decorators = front ++ decorator :: back) :
    ReadsOnly settings scope f (front ++ back) (commandFrom settings scope f)
      ↔ (flag? scope settings.registry f.name decorator).value = none := by
  have hflags : flagsFrom settings scope f = _ := flagsFrom_around h
  have hothers : flagsOf settings scope f.name (front ++ back)
      = flagsOf settings scope f.name front ++ flagsOf settings scope f.name back :=
    List.filterMap_append
  rw [ReadsOnly, hothers, commandFrom]
  dsimp only
  rw [hflags]
  cases (flag? scope settings.registry f.name decorator).value with
  | none =>
    rw [Option.toList_none, List.nil_append]
    exact ⟨fun _ => rfl, fun _ => ⟨rfl, rfl⟩⟩
  | some flag =>
    constructor
    · rintro ⟨hsame, -⟩
      have hlength := congrArg List.length hsame
      simp only [Option.toList_some, List.length_append, List.length_singleton] at hlength
      omega
    · intro hnone
      cases hnone

/-- **When a hidden decorator is ignored.** Within the class body the decorator is no marker. Its command
takes no notice of it exactly if it gives no flag among the names around the class. -/
theorem hidden_ignored_iff {settings : Settings} {collection result : Collection}
    {outline : List Node} {location : String} {c : ClassPlace} {place : Place} {f : Function}
    {front back : List Expr} {decorator : Expr}
    (hextract : (extract settings collection outline location).run.value = .ok result)
    (hclass : c ∈ outerClasses outline) (hlast : DefinesLast c.body place f)
    (hpublic : isPublic f.name = true) (hdecorators : f.decorators = front ++ decorator :: back)
    (hhidden : isHidden settings.registry place.before decorator = true) :
    markerOf? ((Bindings.recordAll {} c.before).recordAll place.before) settings.registry decorator = none
      ∧ ∃ m ∈ result.modules, Describes settings location c m
        ∧ ∃ command ∈ m.commands, command.name = f.name
          ∧ (ReadsOnly settings (Bindings.recordAll {} c.before) f (front ++ back) command
            ↔ (flag? (Bindings.recordAll {} c.before) settings.registry f.name decorator).value
              = none) := by
  refine ⟨markerOf?_of_isHidden hhidden _, moduleAt settings location {} c, ?_,
    describes_moduleAt settings location c, ?_⟩
  · rw [(extract_eq_ok_iff.mp hextract).2]
    exact List.mem_append_right _ (List.mem_map_of_mem hclass)
  · have hdescribes := describes_moduleAt settings location c
    have hname : f.name ∈ (moduleAt settings location {} c).commands.map (·.name) := by
      obtain ⟨earlier, later, hfunctions, -⟩ := bodyFunctions_of_definesLast hlast
      rw [hdescribes.commandNames, publicNames, hfunctions]
      apply List.mem_filter.mpr
      refine ⟨List.mem_eraseDups.mpr (List.mem_map_of_mem ?_), hpublic⟩
      exact List.mem_append_right _ List.mem_cons_self
    obtain ⟨command, hcommand, hsame⟩ := List.mem_map.mp hname
    obtain ⟨g, hg, hfrom⟩ := hdescribes.command command hcommand
    rw [hsame, lastFunction?_of_definesLast hlast] at hg
    cases hg
    refine ⟨command, hcommand, hsame, ?_⟩
    rw [hfrom]
    exact readsOnly_others_iff hdecorators

/-- A function that a class defines and then uses as the decorator of a method. -/
def localMarker : Function where
  name := Marker.hydraName
  parameters := { args := [⟨"method", none⟩] }
  decorators := []
  returns := none
  docstring := none
  line := 4

/-- The decorated method. -/
def decoratedRun : Function where
  name := "run"
  parameters := { args := [⟨"self", none⟩, ⟨"cfg", none⟩] }
  decorators := [.name Marker.hydraName]
  returns := none
  docstring := none
  line := 8

/-- The place of the decorated method, behind the function. -/
def runPlace : Place := ⟨[], [.functionDef localMarker [.other]], .functionDef decoratedRun [.other]⟩

/-- The class, in a file that imports the name of the function from a package. -/
def jobClass (package : String) : ClassPlace where
  before := [.importFrom package [⟨Marker.hydraName, none⟩] false]
  head := ⟨"Job", [], none, 3⟩
  body := runPlace.before ++ [runPlace.node]

/-- The file. -/
def jobOutline (package : String) : List Node :=
  (jobClass package).before ++ [.classDef (jobClass package).head (jobClass package).body]

theorem definesLast_run (package : String) :
    DefinesLast (jobClass package).body runPlace decoratedRun := by
  refine ⟨_, [⟨[runPlace.node], runPlace.before, .other⟩],
    show _ = [⟨[], [], .functionDef localMarker [.other]⟩,
      ⟨[.functionDef localMarker [.other]], [], .other⟩] ++ _ from rfl, rfl, ?_⟩
  intro other hother g hg
  obtain rfl := List.mem_singleton.mp hother
  cases hg

/-- If another package than that of the markers is imported, then the decorator is ignored. -/
theorem hidden_ignored_iff_toolbox :
    ∃ result, (extract {} {} (jobOutline "toolbox") "job.py").run.value = .ok result
      ∧ jobClass "toolbox" ∈ outerClasses (jobOutline "toolbox")
      ∧ DefinesLast (jobClass "toolbox").body runPlace decoratedRun
      ∧ isPublic decoratedRun.name = true
      ∧ isHidden ({} : Settings).registry runPlace.before (.name Marker.hydraName) = true
      ∧ ∃ m ∈ result.modules, ∃ command ∈ m.commands, command.name = "run"
        ∧ ReadsOnly {} (Bindings.recordAll {} (jobClass "toolbox").before) decoratedRun [] command := by
  have hstrict : ({} : Settings).strict = false := rfl
  have hextract := extract_of_not_strict hstrict {} (jobOutline "toolbox") "job.py"
  have hclass : jobClass "toolbox" ∈ outerClasses (jobOutline "toolbox") := List.mem_singleton_self _
  have hlast := definesLast_run "toolbox"
  have hpublic : isPublic decoratedRun.name = true := by decide
  have hhidden : isHidden ({} : Settings).registry runPlace.before (.name Marker.hydraName) = true := by
    decide +kernel
  have hdecorators : decoratedRun.decorators = [] ++ Expr.name Marker.hydraName :: [] := rfl
  obtain ⟨-, m, hm, -, command, hcommand, hname, hiff⟩ :=
    hidden_ignored_iff hextract hclass hlast hpublic hdecorators hhidden
  exact ⟨_, hextract, hclass, hlast, hpublic, hhidden, m, hm, command, hcommand, hname,
    hiff.mpr (by decide +kernel)⟩

/-- The text of the file that imports the marker. -/
def hidingSource : SourceFile where
  location := "job.py"
  text := "from argsmith import add_hydra\n\nclass Job:\n    def add_hydra(method):\n        return method\n\n    @add_hydra\n    def run(self, cfg):\n        pass\n"

/-- **A class does not hide a marker from its own methods**: the flag is there and the parameter is not,
although the decorator is the function of the class. -/
theorem hidden_not_ignored :
    jobClass Marker.defaultNamespace ∈ outerClasses (jobOutline Marker.defaultNamespace)
      ∧ DefinesLast (jobClass Marker.defaultNamespace).body runPlace decoratedRun
      ∧ isHidden ({} : Settings).registry runPlace.before (.name Marker.hydraName) = true
      ∧ ∃ result, (extract {} {} (jobOutline Marker.defaultNamespace) "job.py").run.value = .ok result
        ∧ (extractSources {} [hidingSource]).run.value = .ok result
        ∧ result.modules.map (fun m => m.commands.map fun command =>
            (command.name, command.args.map (·.name), command.flags.map (·.name)))
          = [[(Marker.hydraName, [], []), ("run", [], [Marker.hydraName])]] := by
  have hstrict : ({} : Settings).strict = false := rfl
  have hextract := extract_of_not_strict hstrict {} (jobOutline Marker.defaultNamespace) "job.py"
  have hsource : (extractSources {} [hidingSource]).run.value
      = (extract {} {} (jobOutline Marker.defaultNamespace) "job.py").run.value := by
    decide +kernel
  refine ⟨List.mem_singleton_self _, definesLast_run Marker.defaultNamespace, by decide +kernel, _,
    hextract, hsource.trans hextract, ?_⟩
  decide +kernel

end ClassCli.Extraction
