import ClassCli.Notice

/-!
# Formatting generated files

A formatter is a program that is run on the generated files. Whatever becomes of it, the work goes on;
what went wrong is only told.

* **`Formatter.Outcome.notices`** — what is told about a run.
-/

namespace ClassCli.Formatter

/-- The name under which the formatter is looked for. -/
def defaultProgram : String := "black"

/-- How a run of the formatter ends. -/
inductive Outcome where
  | done
  | failed (code : Nat) (errors : String)
  /-- There is no such program. -/
  | notInstalled
  deriving DecidableEq, Repr, Inhabited

/-- What is told about a run of a program. -/
def Outcome.notices (program : String) : Outcome → List Notice
  | .done => []
  | .failed code errors => [.formatterFailed ("exit status: " ++ Literal.integerText code) errors]
  | .notInstalled => [.formatterMissing program]

end ClassCli.Formatter
