import ClassCli.Interface.Basic

/-!
# Values as Python expressions

Literals are written as expressions of Python that evaluate to them. Strings stand in single quotes;
infinite values and the one that is no number are written as calls, because Python has no literals
for them.

* **`quote`** — a string.
* **`literal`** — any value.
* **`callArgs`** — the keyword arguments of a call that takes its values out of parsed arguments.
-/

namespace ClassCli.Code

open Interface (Argument)

/-- A character inside single quotes. -/
def escaped (c : Char) : List Char :=
  if c = '\\' then ['\\', '\\']
  else if c = '\x27' then ['\\', '\x27']
  else if c = '\n' then ['\\', 'n']
  else if c = '\r' then ['\\', 'r']
  else if c = '\t' then ['\\', 't']
  else [c]

/-- A string in single quotes. -/
def quote (s : String) : String :=
  String.ofList ('\x27' :: s.toList.flatMap escaped ++ ['\x27'])

/-- A floating-point number; those without a literal are written as calls. -/
def number (x : Decimal.Binary64) : String :=
  if x.isNaN then "float('nan')"
  else if x.isInfinite then (if x.negative then "-" else "") ++ "float('inf')"
  else Literal.floatText x

mutual

/-- The expression of a value. -/
def literal : Literal → String
  | .none => "None"
  | .bool true => "True"
  | .bool false => "False"
  | .int i => Literal.integerText i.toInt
  | .float x => number x
  | .str s => quote s
  | .list items => "[" ++ Text.joinStrings ", " (literals items) ++ "]"

/-- The expressions of values. -/
def literals : List Literal → List String
  | [] => []
  | x :: xs => literal x :: literals xs

end

/-- The keyword arguments of a call, each read from the parsed arguments. -/
def callArgs (args : List Argument) : String :=
  Text.joinStrings ", " (args.map fun arg =>
    arg.destination ++ "=args['" ++ arg.destination ++ "']")

end ClassCli.Code
