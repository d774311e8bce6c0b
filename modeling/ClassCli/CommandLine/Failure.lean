import ClassCli.Fault
import ClassCli.Glob.Pattern
import ClassCli.Text.Basic

/-!
# Failures

Why a command was not carried out, and how that is reported: what was attempted, and below it what
stood in the way, from the nearest cause to the farthest.

* **`Failure.report`** — the report of a failure.
-/

namespace ClassCli.CommandLine

/-- Why a command was not carried out. -/
inductive Failure where
  | invalidPattern (pattern : String) (fault : Glob.PatternFault)
  | noInput
  | extracting (fault : Fault)
  | generatingFrom (file : String) (fault : Fault)
  | generatingInto (directory : String) (fault : Fault)
  deriving DecidableEq, Repr, Inhabited

namespace Failure

/-- What was attempted. -/
def summary : Failure → String
  | invalidPattern pattern _ => "invalid glob pattern: " ++ pattern
  | noInput => "no input files"
  | extracting _ => "failed to extract structure"
  | generatingFrom file _ => "failed to generate code from " ++ file
  | generatingInto directory _ => "failed to generate code into " ++ directory

/-- The causes, nearest first. -/
def causes : Failure → List String
  | invalidPattern _ fault => [fault.message]
  | noInput => []
  | extracting fault | generatingFrom _ fault | generatingInto _ fault =>
    fault.message :: fault.cause?.toList

/-- A text with an indentation behind every line feed. -/
def indented (indentation text : String) : String :=
  String.ofList (text.toList.flatMap fun c => if c = '\n' then '\n' :: indentation.toList else [c])

/-- Causes with their numbers, each on lines of its own. -/
def numbered : Nat → List String → String
  | _, [] => ""
  | number, cause :: rest =>
    "    " ++ Literal.integerText number ++ ": " ++ indented "       " cause ++ "\n"
      ++ numbered (number + 1) rest

/-- The report of a failure. Causes are numbered if there are several. -/
def report (failure : Failure) : String :=
  "Error: " ++ failure.summary ++ "\n"
    ++ match failure.causes with
      | [] => ""
      | [cause] => "\nCaused by:\n    " ++ indented "    " cause ++ "\n"
      | causes => "\nCaused by:\n" ++ numbered 0 causes

end Failure

end ClassCli.CommandLine
