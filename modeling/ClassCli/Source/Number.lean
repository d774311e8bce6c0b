/-!
# Number lexemes

Numbers are split off the front of a text by the longest match: integers in base ten, sixteen,
eight and two, and floating-point numbers. One underscore may stand between digits, in base ten also
after the last one.

* **`Number.split`** — the number at the front of a text, if there is one.
-/

namespace ClassCli.Source.Number

/-- The digits at the front of a text. A single underscore is taken after a digit. -/
def digitRun : Bool → List Char → List Char × List Char
  | _, [] => ([], [])
  | afterDigit, c :: rest =>
    if c.isDigit then
      let (run, after) := digitRun true rest
      (c :: run, after)
    else if c = '_' && afterDigit then
      match rest with
      | d :: _ =>
        if d.isDigit then
          let (run, after) := digitRun false rest
          (c :: run, after)
        else ([c], rest)
      | [] => ([c], [])
    else ([], c :: rest)

/-- The digits of another base at the front of a text. A single underscore is taken before one. -/
def radixRun (isDigit : Char → Bool) : List Char → List Char × List Char
  | [] => ([], [])
  | c :: rest =>
    if isDigit c then
      let (run, after) := radixRun isDigit rest
      (c :: run, after)
    else if c = '_' then
      match rest with
      | d :: _ =>
        if isDigit d then
          let (run, after) := radixRun isDigit rest
          (c :: run, after)
        else ([], c :: rest)
      | [] => ([], [c])
    else ([], c :: rest)

/-- The digits of base sixteen. -/
def isHexDigit (c : Char) : Bool := c.isDigit || ('a' ≤ c && c ≤ 'f') || ('A' ≤ c && c ≤ 'F')

/-- The digits of base eight. -/
def isOctalDigit (c : Char) : Bool := '0' ≤ c && c ≤ '7'

/-- The digits of base two. -/
def isBinaryDigit (c : Char) : Bool := c == '0' || c == '1'

/-- Takes one character of a set, if it comes next. -/
def takeOne (set : List Char) : List Char → List Char × List Char
  | c :: rest => if c ∈ set then ([c], rest) else ([], c :: rest)
  | [] => ([], [])

/-- The exponent at the front of a text: a letter, perhaps a sign, and digits. -/
def exponent (s : List Char) : Option (List Char × List Char) :=
  match takeOne ['e', 'E'] s with
  | ([], _) => none
  | (mark, rest) =>
    let (sign, rest) := takeOne ['+', '-'] rest
    match digitRun false rest with
    | ([], _) => none
    | (digits, rest) => some (mark ++ sign ++ digits, rest)

/-- The base marked by the letter after a zero. -/
def radixDigits (letter : Char) : Option (Char → Bool) :=
  if letter = 'x' || letter = 'X' then some isHexDigit
  else if letter = 'o' || letter = 'O' then some isOctalDigit
  else if letter = 'b' || letter = 'B' then some isBinaryDigit
  else none

/-- An integer in a marked base. -/
def radix (s : List Char) : Option (List Char × List Char) :=
  match s with
  | '0' :: letter :: rest =>
    match radixDigits letter with
    | none => none
    | some isDigit =>
      match radixRun isDigit rest with
      | ([], _) => none
      | (digits, rest) =>
        let (suffix, rest) := takeOne ['l', 'L'] rest
        some ('0' :: letter :: digits ++ suffix, rest)
  | _ => none

/-- The kind of a number. -/
inductive Kind where
  | integer
  | float
  deriving DecidableEq, Repr

/-- Finishes a floating-point number after its digits and point: exponent and imaginary suffix. -/
def float (start rest : List Char) : Kind × List Char × List Char :=
  let (power, rest) := (exponent rest).getD ([], rest)
  let (suffix, rest) := takeOne ['j', 'J'] rest
  (.float, start ++ power ++ suffix, rest)

/-- The number at the front of a text: its kind, its characters and what follows. -/
def split (s : List Char) : Option (Kind × List Char × List Char) :=
  match radix s with
  | some (text, rest) => some (.integer, text, rest)
  | none =>
    match digitRun false s with
    | ([], '.' :: rest) =>
      match digitRun false rest with
      | ([], _) => none
      | (digits, rest) => some (float ('.' :: digits) rest)
    | ([], _) => none
    | (digits, '.' :: rest) =>
      let (fraction, rest) := digitRun false rest
      some (float (digits ++ '.' :: fraction) rest)
    | (digits, rest) =>
      match exponent rest with
      | some _ => some (float digits rest)
      | none =>
        let (suffix, rest) := takeOne ['l', 'L', 'j', 'J'] rest
        some (.integer, digits ++ suffix, rest)

end ClassCli.Source.Number
