import ClassCli.Docstring.Indented
import ClassCli.Docstring.Tagged
import ClassCli.Docstring.Underlined
import ClassCli.Fault

/-!
# Docstring conventions

Docstrings are written in one of four conventions. Each answers the same three questions about a
cleaned docstring: its summary line, the described parameters and the description of the result.

* **`Convention.summaryLine?`**, **`Convention.documentedArgs`**, **`Convention.documentedReturn?`**
  — the three answers.
* **`Convention.ofName`** — the convention of a given name.
-/

namespace ClassCli.Docstring

open Text

/-- A docstring convention. -/
inductive Convention where
  | google
  | epytext
  | rest
  | numpydoc
  deriving DecidableEq, Repr, Inhabited

namespace Convention

/-- The name of a convention. -/
def name : Convention → String
  | .google => "google"
  | .epytext => "epytext"
  | .rest => "rest"
  | .numpydoc => "numpydoc"

/-- The convention of an exact name or of the short form of one. -/
def ofExactName? (text : String) : Option Convention :=
  if text = "numpy" then some .numpydoc
  else [google, epytext, rest, numpydoc].find? (·.name == text)

/-- The convention of a name in whatever case. -/
def ofName (text : String) : Except Fault Convention :=
  match ofExactName? (String.ofList (asciiLower text.toList)) with
  | some convention => .ok convention
  | none => .error (.unknownConvention text)

/-- The first non-blank line that does not start with a mark, trimmed. -/
def firstLine? (mark : Option Char) (lines : List (List Char)) : Option (List Char) :=
  (lines.map trim).find? fun line => !line.isEmpty && (mark.isNone || line.head? != mark)

/-- The summary line of a docstring. -/
def summaryLine? (convention : Convention) (doc : String) : Option String :=
  let lines := lines doc.toList
  let line := match convention with
    | .google => firstLine? none lines
    | .epytext => firstLine? (some Tagged.epytext.mark) lines
    | .rest => firstLine? (some Tagged.rest.mark) lines
    | .numpydoc => Underlined.summary? lines
  line.map String.ofList

/-- The parameters that a docstring describes, in order. -/
def documentedArgs (convention : Convention) (doc : String) : Entries String :=
  let lines := lines doc.toList
  match convention with
  | .google => Indented.args lines
  | .epytext => Tagged.args Tagged.epytext lines
  | .rest => Tagged.args Tagged.rest lines
  | .numpydoc => Underlined.args lines

/-- What a docstring says about the result. -/
def documentedReturn? (convention : Convention) (doc : String) : Option String :=
  let lines := lines doc.toList
  match convention with
  | .google => Indented.returns? lines
  | .epytext => Tagged.returns? Tagged.epytext lines
  | .rest => Tagged.returns? Tagged.rest lines
  | .numpydoc => Underlined.returns? lines

end Convention

end ClassCli.Docstring
