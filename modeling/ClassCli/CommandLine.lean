import ClassCli.CommandLine.Inputs
import ClassCli.CommandLine.Request
import ClassCli.Workflow

/-!
# The command line

Reads the arguments, carries the command out on a host and says how that ended.

* **`run`** — the whole program.
-/

namespace ClassCli.CommandLine

open Workflow (Configuration Layout Output Session)

variable {m : Type → Type} [Monad m]

/-- The name of the program and its version. -/
def versionLine : String := "argsmith 0.1.0\n"

/-- How the program is called. -/
def usage : String :=
  "Usage: argsmith [--log-level LEVEL] COMMAND [OPTIONS]\n\n"
    ++ "  parse-code          Extract the structure of Python classes into YAML or JSON\n"
    ++ "  write-code          Generate the CLI package from a YAML or JSON structure file\n"
    ++ "  generate-argparser  Extract and generate in one pass\n"

/-- How a run of the program ends: its exit code and what is written to the error output last. -/
structure Ending where
  code : Nat := 0
  message : String := ""
  deriving DecidableEq, Repr, Inhabited

/-- The host of a command; it does not ask if files may be replaced anyway. -/
def gated (host : Host m) (force : Bool) : Host m := if force then host.forced else host

/-- Runs in a new session and names a fault by what it got in the way of. -/
def within {α : Type} (name : Fault → Failure) (x : Session m α) : ExceptT Failure m α :=
  ExceptT.mk do return (← x.run.run {}).1.mapError name

/-- The settings of a command that extracts interfaces. -/
def Extracting.configuration (e : Extracting) (projectRoot : String) : Configuration :=
  { convention := e.convention, strict := e.strict, projectRoot }

/-- Carries a command out; imports start from a directory. -/
def perform (host : Host m) (projectRoot : String) : Command → ExceptT Failure m Unit
  | .parseCode extracting output force => do
    let files ← expand host extracting.inputs
    discard (within .extracting
      (Workflow.parseCode (gated host force) (extracting.configuration projectRoot) files
        (Output.ofPath? (some output))))
  | .writeCode input writing =>
    discard (within (.generatingFrom input)
      (Workflow.writeCode (gated host writing.force) { pretty := writing.pretty, projectRoot } input
        writing.directory))
  | .generateParser extracting writing => do
    let files ← expand host extracting.inputs
    discard (within (.generatingInto writing.directory)
      (Workflow.generateParser (gated host writing.force)
        { extracting.configuration projectRoot with pretty := writing.pretty } files
        writing.directory))

/-- The program: reads the arguments and carries them out. -/
def run (host : Host m) (projectRoot : String) (arguments : List String) : m Ending := do
  match Request.ofArguments arguments with
  | .error .misuse => return { code := 2, message := usage }
  | .error .version =>
    host.print versionLine
    return {}
  | .error .help =>
    host.print usage
    return {}
  | .ok request =>
    let host := host.telling fun notice => request.threshold.shows notice.level
    match ← (perform host projectRoot request.command).run with
    | .ok () => return {}
    | .error failure => return { code := 1, message := failure.report }

end ClassCli.CommandLine
