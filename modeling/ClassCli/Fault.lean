import ClassCli.Interface.DataFault

/-!
# Faults

Everything that can go wrong between reading sources and writing the generated files.

* **`Fault.message`** — the wording of a fault.
* **`Fault.cause?`** — the wording of what is behind it, where a report names that separately.
-/

namespace ClassCli

open Interface (DataFault)

/-- What is wrong with a name of a generated function. -/
inductive NameFault where
  | empty
  | whitespace
  | hyphen
  | uppercase
  deriving DecidableEq, Repr, Inhabited

/-- The wording of a fault in a name. -/
def NameFault.message : NameFault → String
  | .empty => "must not be empty"
  | .whitespace => "whitespace is not allowed"
  | .hyphen => "'-' is not allowed"
  | .uppercase => "must be lowercase"

/-- Why a file or directory could not be used. -/
inductive FileFault where
  | notFound
  | exists
  | notDirectory
  | isDirectory
  | nameTooLong
  /-- A name that holds the character that ends names. -/
  | endInName
  /-- A file that may be there to stay, and the question about it could not be put. -/
  | unasked (description : String)
  /-- Anything else, in the words of the system. -/
  | other (description : String)
  deriving DecidableEq, Repr, Inhabited

/-- The wording of a fault with a file. -/
def FileFault.message : FileFault → String
  | .notFound => "No such file or directory (os error 2)"
  | .exists => "File exists (os error 17)"
  | .notDirectory => "Not a directory (os error 20)"
  | .isDirectory => "Is a directory (os error 21)"
  | .nameTooLong => "File name too long (os error 36)"
  | .endInName => "file name contained an unexpected NUL byte"
  | .unasked description => description
  | .other description => description

/-- What went wrong. -/
inductive Fault where
  /-- A method has no docstring although every one must have one. -/
  | missingDocumentation (className method : String)
  | unsupportedFormat (extension path : String)
  | identifierFormat (name : String) (reason : NameFault)
  | unknownConvention (name : String)
  | malformedSource (location : String) (line : Nat)
  | file (path : String) (reason : FileFault)
  /-- A text that is no JSON. -/
  | notJson
  /-- A value that describes no interface. -/
  | data (reason : DataFault)
  /-- A text that is no YAML. -/
  | notYaml
  deriving DecidableEq, Repr, Inhabited

namespace Fault

/-- The question whether a file may be replaced could not be put. -/
@[match_pattern]
abbrev prompt (path description : String) : Fault := .file path (.unasked description)

/-- The wording of a fault. A question that could not be put is told of without the file. -/
def message : Fault → String
  | .missingDocumentation className method =>
    "missing docstring in method " ++ className ++ "." ++ method ++ ": extraction aborted"
  | .unsupportedFormat extension path =>
    "no persistence format for extension '" ++ extension ++ "' (" ++ path ++ ")"
  | .identifierFormat name reason =>
    "invalid identifier " ++ Text.quoted name ++ ": " ++ reason.message
  | .unknownConvention name =>
    "unknown docstring format: " ++ name ++ ". Use google, epytext, rest, or numpydoc"
  | .malformedSource location line =>
    "syntax error in " ++ location ++ " at line " ++ Literal.integerText line
      ++ ": invalid Python syntax"
  | .prompt _ description => "overwrite prompt failed: " ++ description
  | .file path reason => "I/O error on '" ++ path ++ "': " ++ reason.message
  | .notJson => "not JSON"
  | .data reason => "JSON error: " ++ reason.message
  | .notYaml => "not YAML"

/-- The wording of what is behind a fault. -/
def cause? : Fault → Option String
  | .prompt .. => none
  | .file _ reason => some reason.message
  | .data reason => some reason.message
  | _ => none

end Fault

end ClassCli
