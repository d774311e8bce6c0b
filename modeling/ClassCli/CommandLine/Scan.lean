import ClassCli.Entries
import ClassCli.Text.Basic

/-!
# Scanning a command line

An option starts with two hyphens and has a name, or with one hyphen and has one letter; several letters
can stand behind one hyphen. The value of an option is the next argument, or what stands behind an
equals sign. Two hyphens alone end the options. The arguments are read from left to right, and the
first one that is wrong or asks for something else ends the scan.

* **`Parameter`**, **`Form`** — what options there are, and what values they take.
* **`scan`** — the options at the start of a command line and what follows them.
-/

namespace ClassCli.CommandLine

/-- Why a scan ends before its time. -/
inductive Stop where
  /-- The command line cannot be understood. -/
  | misuse
  | version
  | help
  deriving DecidableEq, Repr, Inhabited

/-- What values an option takes. -/
inductive Form where
  /-- No value. -/
  | flag
  /-- A text that is not empty. -/
  | path
  /-- One text or more; they may be given in several goes. -/
  | texts
  /-- One of several names. -/
  | choice (names : List String) (anyCase : Bool)
  /-- No value; the option asks for something else. -/
  | ask (stop : Stop)
  deriving DecidableEq, Repr, Inhabited

namespace Form

/-- Whether an option takes a further value behind a number of values. -/
def takesMore : Form → Nat → Bool
  | texts, _ => true
  | path, given | choice _ _, given => given == 0
  | _, _ => false

/-- Whether an option takes values. -/
def takesValue (form : Form) : Bool := form.takesMore 0

/-- Whether a value can be given to an option. -/
def accepts : Form → String → Bool
  | path, value => !value.isEmpty
  | choice names anyCase, value =>
    names.contains (if anyCase then String.ofList (Text.asciiLower value.toList) else value)
  | _, _ => true

end Form

/-- An option that can be given. -/
structure Parameter where
  name : String
  form : Form
  letter? : Option Char := none
  deriving DecidableEq, Repr, Inhabited

/-! ## Arguments -/

/-- The kind of an argument by its looks. -/
inductive Word where
  /-- The end of the options. -/
  | ending
  | long (name : String) (value? : Option String)
  | letters (letters : List Char)
  | value (text : String)
  deriving DecidableEq, Repr, Inhabited

/-- The kind of an argument. A single hyphen is a value. -/
def Word.ofText (argument : String) : Word :=
  match argument.toList with
  | ['-', '-'] => .ending
  | '-' :: '-' :: rest =>
    match Text.splitOnce '=' rest with
    | some (name, behind) => .long (String.ofList name) (some (String.ofList behind))
    | none => .long (String.ofList rest) none
  | '-' :: letter :: rest => .letters (letter :: rest)
  | _ => .value argument

/-! ## Scanning -/

/-- The options found so far with their values, and the one whose values are being read. -/
structure Scan where
  given : Entries (List String) := []
  current? : Option (Parameter × List String) := none
  deriving Repr, Inhabited

namespace Scan

/-- Whether an option was given. -/
def has (s : Scan) (name : String) : Bool := Entries.has name s.given

/-- The values of an option. -/
def values (s : Scan) (name : String) : List String := (Entries.get? name s.given).getD []

/-- The value of an option, or another one if it was not given. -/
def valueOr (s : Scan) (name other : String) : String := (s.values name).headD other

/-- Keeps the values of an option. Only options that take texts may be given again. -/
def store (s : Scan) (parameter : Parameter) (values : List String) : Except Stop Scan :=
  if !values.all parameter.form.accepts then .error .misuse
  else if s.has parameter.name && parameter.form != .texts then .error .misuse
  else .ok {
    given := Entries.put parameter.name (s.values parameter.name ++ values) s.given
    current? := none }

/-- Ends the values of the current option. -/
def close (s : Scan) : Except Stop Scan :=
  match s.current? with
  | none => .ok s
  | some (_, []) => .error .misuse
  | some (parameter, values) => s.store parameter values

/-- Starts an option, with what stands behind its equals sign. -/
def start (s : Scan) (parameter : Parameter) (value? : Option String) : Except Stop Scan :=
  match parameter.form, value? with
  | .ask stop, none => .error stop
  | form, some value => if form.takesValue then s.store parameter [value] else .error .misuse
  | form, none =>
    if form.takesValue then .ok { s with current? := some (parameter, []) }
    else s.store parameter []

/-- Starts the option of a letter. -/
def startLetter (parameters : List Parameter) (s : Scan) (letter : Char) : Except Stop Scan :=
  match parameters.find? (·.letter? == some letter) with
  | some parameter => s.start parameter none
  | none => .error .misuse

/-- Starts the option of a name. -/
def startNamed (parameters : List Parameter) (s : Scan) (name : String) (value? : Option String) :
    Except Stop Scan :=
  match parameters.find? (·.name == name) with
  | some parameter => s.start parameter value?
  | none => .error .misuse

end Scan

/-- Reads options from the start of a command line until there is an argument that belongs to none;
that argument and those behind it are left. -/
def scan (parameters : List Parameter) : Scan → List String → Except Stop (Scan × List String)
  | s, [] => s.close.map fun s => (s, [])
  | s, argument :: rest =>
    match Word.ofText argument with
    | .ending => if rest.isEmpty then s.close.map fun s => (s, []) else .error .misuse
    | .long name value? => do
      let s ← s.close
      let s ← s.startNamed parameters name value?
      scan parameters s rest
    | .letters letters => do
      let s ← s.close
      let s ← letters.foldlM (Scan.startLetter parameters) s
      scan parameters s rest
    | .value text =>
      match s.current? with
      | some (parameter, values) =>
        if parameter.form.takesMore values.length then
          scan parameters { s with current? := some (parameter, values ++ [text]) } rest
        else s.close.map fun s => (s, argument :: rest)
      | none => .ok (s, argument :: rest)

end ClassCli.CommandLine
