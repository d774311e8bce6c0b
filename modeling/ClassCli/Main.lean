import ClassCli.CommandLine
import ClassCli.Formatter
import ClassCli.Question

/-!
# The program

The host that works on the computer's own files and on standard input and output. Paths are relative to
the current directory, which is also where generated imports start. No other program is run, so the
formatter counts as not installed.
-/

namespace ClassCli.Main

/-- The number that the system gives an error; some come with the opposite sign. -/
def systemCode (code : UInt32) : UInt32 := if code < 0x80000000 then code else 0 - code

/-- The fault with a file that an error of the system stands for. -/
def faultOf : IO.Error → FileFault
  | .noFileOrDirectory .. => .notFound
  | .alreadyExists .. => .exists
  | .inappropriateType _ code details | .invalidArgument _ code details =>
    match systemCode code with
    | 20 => .notDirectory
    | 21 => .isDirectory
    | 36 => .nameTooLong
    | _ => .other details
  | error => .other (toString error)

/-- Carries an operation on a file out. The empty path leads nowhere. -/
def attempt {α : Type} (path : String) (operation : IO α) : IO (Except FileFault α) := do
  if path.toList.contains '\x00' then return .error .endInName
  else if path.isEmpty then return .error .notFound
  else
    match ← operation.toBaseIO with
    | .ok value => return .ok value
    | .error error => return .error (faultOf error)

/-- What stands at a path. -/
def kind? (path : String) : IO (Option EntryKind) := do
  match ← attempt path (do return (← ((← IO.currentDir) / path).metadata).type) with
  | .ok .dir => return some .directory
  | .ok _ => return some .file
  | .error _ => return none

/-- The names in a directory. -/
def names (path : String) : IO (List String) := do
  match ← attempt path (do ((← IO.currentDir) / path).readDir) with
  | .ok entries => return entries.toList.map (·.fileName)
  | .error _ => return []

/-- The names that lead to everything in a directory. -/
partial def inside (path : String) : IO (List (List String)) := do
  let mut found := []
  for name in ← names path do
    found := [name] :: found
    for position in ← inside (Path.join path name) do
      found := (name :: position) :: found
  return found.reverse

/-- Writes a notice to the error output. -/
def tell (notice : Notice) : IO Unit := do
  let details := notice.details.map fun (name, text) => " " ++ name ++ "=" ++ text
  IO.eprintln (notice.level.name ++ " " ++ notice.message ++ String.join details)

/-- The next line of standard input. -/
def readLine : IO (Option String) := do
  let line ← (← IO.getStdin).getLine
  return if line.isEmpty then none else some line

/-- Asks the user whether a file may be replaced. -/
def confirm (path : String) : IO (Except FileFault Bool) := do
  match ← (Question.ask IO.eprint readLine tell path).toBaseIO with
  | .ok answer => return .ok answer
  | .error error => return .error (.unasked (toString error))

/-- The computer that the program runs on. -/
def host : Host IO where
  kind? := kind?
  readText path := attempt path (do IO.FS.readFile ((← IO.currentDir) / path))
  writeText path text := attempt path (do IO.FS.writeFile ((← IO.currentDir) / path) text)
  makeDirectory path := attempt path (do IO.FS.createDir ((← IO.currentDir) / path))
  names := names
  inside := inside
  confirm := confirm
  format _ := (Formatter.Outcome.notInstalled.notices Formatter.defaultProgram).forM tell
  tell := tell
  print := IO.print

end ClassCli.Main

/-- Runs the program and ends with its exit code. -/
def main (arguments : List String) : IO UInt32 := do
  let ending ← ClassCli.CommandLine.run ClassCli.Main.host (← IO.currentDir).toString arguments
  IO.eprint ending.message
  return ending.code.toUInt32
