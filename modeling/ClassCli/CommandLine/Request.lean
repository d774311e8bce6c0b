import ClassCli.CommandLine.Scan
import ClassCli.Docstring.Convention
import ClassCli.Notice
import ClassCli.Workflow.Configuration

/-!
# Requests

What a command line asks for: one of three commands with its options, and how much is told on the way.

* **`Command`**, **`Threshold`** — the parts of a request.
* **`Request.ofArguments`** — the request of a command line.
-/

namespace ClassCli.CommandLine

open Docstring (Convention)

/-- Which notices are shown: those of a level and above. -/
inductive Threshold where
  | debug
  | info
  | warn
  | error
  deriving DecidableEq, Repr, Inhabited

namespace Threshold

/-- The name of a threshold. -/
def name : Threshold → String
  | debug => "debug"
  | info => "info"
  | warn => "warn"
  | error => "error"

/-- All thresholds. -/
def all : List Threshold := [debug, info, warn, error]

/-- Whether notices of a level are shown. -/
def shows : Threshold → Level → Bool
  | error, .warning => false
  | _, _ => true

end Threshold

/-- How interfaces are extracted. -/
structure Extracting where
  inputs : List String
  convention : Convention
  strict : Bool
  deriving Repr, Inhabited

/-- How code is generated. -/
structure Writing where
  directory : String
  pretty : Bool
  force : Bool
  deriving Repr, Inhabited

/-- What is to be done. -/
inductive Command where
  | parseCode (extracting : Extracting) (output : String) (force : Bool)
  | writeCode (input : String) (writing : Writing)
  | generateParser (extracting : Extracting) (writing : Writing)
  deriving Repr, Inhabited

/-- What is to be done, and which notices are shown. -/
structure Request where
  threshold : Threshold
  command : Command
  deriving Repr, Inhabited

/-! ## Options -/

/-- The option that tells which notices are shown. -/
def thresholdOption : Parameter := ⟨"log-level", .choice (Threshold.all.map (·.name)) true, none⟩

/-- The option that asks for help. -/
def helpOption : Parameter := ⟨"help", .ask .help, some 'h'⟩

/-- The options before the command. -/
def commonOptions : List Parameter :=
  [thresholdOption, helpOption, ⟨"version", .ask .version, some 'V'⟩]

/-- The options that tell how interfaces are extracted. -/
def extractingOptions : List Parameter :=
  [⟨"input", .texts, none⟩,
    ⟨"docstring-format", .choice ["google", "epytext", "rest", "numpydoc", "numpy"] false, none⟩,
    ⟨"strict", .flag, none⟩]

/-- The option that allows files to be replaced. -/
def forceOption : Parameter := ⟨"force", .flag, some 'f'⟩

/-- The option that names where results go. -/
def outputOption : Parameter := ⟨"output", .path, none⟩

/-- The options that tell how code is generated. -/
def writingOptions : List Parameter :=
  [outputOption, ⟨"pretty", .flag, some 'p'⟩, forceOption]

/-- The commands by name. -/
inductive CommandName where
  | parseCode
  | writeCode
  | generateParser
  deriving DecidableEq, Repr, Inhabited

namespace CommandName

/-- The command that a word names. -/
def ofText? : String → Option CommandName
  | "parse-code" => some parseCode
  | "write-code" => some writeCode
  | "generate-argparser" => some generateParser
  | _ => none

/-- The options of a command. -/
def options : CommandName → List Parameter
  | parseCode => [thresholdOption, helpOption, outputOption, forceOption] ++ extractingOptions
  | writeCode => [thresholdOption, helpOption, ⟨"input", .path, none⟩] ++ writingOptions
  | generateParser => [thresholdOption, helpOption] ++ extractingOptions ++ writingOptions

end CommandName

/-! ## Reading -/

/-- The threshold that was asked for. -/
def thresholdOf? (s : Scan) : Option Threshold :=
  (s.values thresholdOption.name).head?.bind fun value =>
    let name := String.ofList (Text.asciiLower value.toList)
    Threshold.all.find? (·.name == name)

/-- How interfaces are to be extracted. -/
def extractingOf (s : Scan) : Extracting where
  inputs := s.values "input"
  convention := (Convention.ofExactName? (s.valueOr "docstring-format" "")).getD .google
  strict := s.has "strict"

/-- How code is to be generated. -/
def writingOf (s : Scan) : Writing where
  directory := s.valueOr outputOption.name Workflow.printPath
  pretty := s.has "pretty"
  force := s.has forceOption.name

/-- The command of a name with its options. -/
def commandOf (s : Scan) : CommandName → Command
  | .parseCode =>
    .parseCode (extractingOf s) (s.valueOr outputOption.name Workflow.printPath)
      (s.has forceOption.name)
  | .writeCode => .writeCode (s.valueOr "input" "") (writingOf s)
  | .generateParser => .generateParser (extractingOf s) (writingOf s)

/-- Whether a text names something that there is help on. -/
def hasHelp (topics : List String) : Bool :=
  match topics with
  | [] => true
  | [topic] => topic == "help" || (CommandName.ofText? topic).isSome
  | _ => false

/-- The request of a command line. A threshold behind the command counts more than one before it. -/
def Request.ofArguments (arguments : List String) : Except Stop Request := do
  let (common, rest) ← scan commonOptions {} arguments
  match rest with
  | [] => .error .misuse
  | word :: rest =>
    match CommandName.ofText? word with
    | none => .error (if word = "help" && hasHelp rest then .help else .misuse)
    | some name =>
      let (own, rest) ← scan name.options {} rest
      if !rest.isEmpty || !own.has "input" then .error .misuse
      else
        return {
          threshold := ((thresholdOf? own).orElse fun _ => thresholdOf? common).getD .warn
          command := commandOf own name }

end ClassCli.CommandLine
