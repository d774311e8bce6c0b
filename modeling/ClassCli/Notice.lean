import ClassCli.Literal

/-!
# Notices

What is worth telling the user although the work goes on, or beside the fault that ends it. A
computation hands its notices over together with its value, in the order in which they arose.

* **`Notice`** — the notices, with their level, wording and details.
* **`Noted`** — a value with the notices that arose on the way to it.
-/

namespace ClassCli

/-- Why a marker on a method is ignored. -/
inductive MarkerFault where
  | tooManyArguments (limit given : Nat)
  | unexpectedKeyword (name : String)
  | notLiteral (description : String)
  deriving DecidableEq, Repr, Inhabited

/-- The wording of a fault in a marker. -/
def MarkerFault.message : MarkerFault → String
  | .tooManyArguments limit given =>
    "takes at most " ++ Literal.integerText limit ++ " positional arguments, got "
      ++ Literal.integerText given
  | .unexpectedKeyword name => "unexpected keyword argument '" ++ name ++ "'"
  | .notLiteral description => "'" ++ description ++ "' is not a literal"

/-- How much a notice matters. -/
inductive Level where
  | warning
  | error
  deriving DecidableEq, Repr, Inhabited

/-- The name of a level. -/
def Level.name : Level → String
  | .warning => "WARN"
  | .error => "ERROR"

/-- Something worth telling. -/
inductive Notice where
  | markerIgnored (marker method : String) (reason : MarkerFault)
  | defaultDropped (method parameter description : String)
  | docstringMissing (className method : String)
  | negativeLevel (level : Int)
  | indexOutOfRange (index length : Nat)
  | moduleRepeated (name : String)
  | nothingToDispatch
  | extensionMissing (path : String)
  | nothingMatched (pattern : String)
  | questionUnanswered (path : String)
  | formatterMissing (program : String)
  | formatterFailed (status errors : String)
  deriving DecidableEq, Repr, Inhabited

namespace Notice

/-- The level of a notice. -/
def level : Notice → Level
  | docstringMissing .. | nothingToDispatch | extensionMissing _ => .error
  | _ => .warning

/-- The wording of a notice. -/
def message : Notice → String
  | markerIgnored .. => "ignoring annotation"
  | defaultDropped .. => "non-literal default dropped"
  | docstringMissing .. => "missing docstring"
  | negativeLevel _ => "negative indent level, using 0"
  | indexOutOfRange .. => "replace index out of range"
  | moduleRepeated _ => "duplicate module name, generated functions will collide"
  | nothingToDispatch => "no modules to dispatch to"
  | extensionMissing _ => "output has no file extension, nothing written"
  | nothingMatched pattern => "no files matched: " ++ pattern
  | questionUnanswered _ => "no answer on stdin, keeping existing file"
  | formatterMissing _ => "formatter not installed, skipping --pretty"
  | formatterFailed .. => "black failed, leaving files unformatted"

/-- The details of a notice, by name. -/
def details : Notice → List (String × String)
  | markerIgnored marker method reason =>
    [("err", "cannot resolve @" ++ marker ++ " on " ++ method ++ ": " ++ reason.message)]
  | defaultDropped method parameter description =>
    [("method", method), ("param", parameter), ("default", description)]
  | docstringMissing className method => [("class", className), ("method", method)]
  | negativeLevel level => [("level", Literal.integerText level)]
  | indexOutOfRange index length =>
    [("index", Literal.integerText index), ("len", Literal.integerText length)]
  | moduleRepeated name => [("module", name)]
  | extensionMissing path | questionUnanswered path => [("path", path)]
  | formatterMissing program => [("program", program)]
  | formatterFailed status errors => [("status", status), ("stderr", errors)]
  | nothingToDispatch | nothingMatched _ => []

end Notice

/-! ## Values with notices -/

/-- A value with the notices that arose on the way to it. -/
structure Noted (α : Type) where
  value : α
  notices : List Notice := []
  deriving Repr, Inhabited

namespace Noted

variable {α β : Type}

/-- Gives a notice. -/
def tell (notice : Notice) : Noted Unit := ⟨(), [notice]⟩

/-- Goes on with the value; the notices of the first part come first. -/
def andThen (x : Noted α) (f : α → Noted β) : Noted β :=
  let y := f x.value
  ⟨y.value, x.notices ++ y.notices⟩

instance : Monad Noted where
  pure x := ⟨x, []⟩
  bind := andThen

@[simp] theorem value_pure (x : α) : (pure x : Noted α).value = x := rfl

@[simp] theorem notices_pure (x : α) : (pure x : Noted α).notices = [] := rfl

@[simp] theorem value_bind (x : Noted α) (f : α → Noted β) :
    (x >>= f).value = (f x.value).value := rfl

@[simp] theorem notices_bind (x : Noted α) (f : α → Noted β) :
    (x >>= f).notices = x.notices ++ (f x.value).notices := rfl

end Noted

end ClassCli
