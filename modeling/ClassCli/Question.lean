import ClassCli.Notice
import ClassCli.Text.Basic

/-!
# Asking before a file is replaced

The question is answered with one line. An empty line and a yes in either length and any case allow the
file to be replaced; at the end of the input it is kept.

* **`Question.ask`** — asks and waits for the answer.
-/

namespace ClassCli.Question

/-- The question about a path. -/
def text (path : String) : String := path ++ " already exists. Overwrite it? [Y, n]: "

/-- Whether a line allows a file to be replaced. -/
def accepts (line : String) : Bool :=
  match String.ofList (Text.asciiLower (Text.trim line.toList)) with
  | "" => true
  | "y" => true
  | "yes" => true
  | _ => false

/-- Asks about a path, reads a line and decides; without a line the user is told that the file is
kept. -/
def ask {m : Type → Type} [Monad m] (write : String → m Unit) (readLine : m (Option String))
    (tell : Notice → m Unit) (path : String) : m Bool := do
  write (text path)
  match ← readLine with
  | some line => return accepts line
  | none =>
    tell (.questionUnanswered path)
    return false

end ClassCli.Question
