import UsageAudit.Script.Kind

/-!
# Number literals

The longest number literal at the start of a text, and whether it is an integer or has a fraction or
an exponent. Single low lines may stand between and after digits.
-/

namespace UsageAudit.Script.Number

/-- Splits off a run of digits in which single low lines may follow a digit; none if the text does
not start with a digit. -/
def digits : List Char → Option (List Char × List Char)
  | [] => none
  | c :: rest =>
    if !c.isDigit then none
    else match rest with
      | '_' :: tail =>
        match digits tail with
        | some (more, rest) => some (c :: '_' :: more, rest)
        | none => some ([c, '_'], tail)
      | tail =>
        match digits tail with
        | some (more, rest) => some (c :: more, rest)
        | none => some ([c], tail)

/-- Splits off digits of another base, with single low lines in front of digits. -/
def baseDigits (isDigit : Char → Bool) : List Char → List Char × List Char
  | '_' :: c :: rest =>
    if isDigit c then
      let (more, rest) := baseDigits isDigit rest
      ('_' :: c :: more, rest)
    else ([], '_' :: c :: rest)
  | c :: rest =>
    if isDigit c then
      let (more, rest) := baseDigits isDigit rest
      (c :: more, rest)
    else ([], c :: rest)
  | [] => ([], [])

/-- Splits off one character out of a choice, if it is there. -/
def oneOf (choice : List Char) : List Char → List Char × List Char
  | [] => ([], [])
  | c :: rest => if choice.contains c then ([c], rest) else ([], c :: rest)

/-- Splits off an exponent, if there is a whole one. -/
def exponent (text : List Char) : List Char × List Char :=
  match text with
  | e :: rest =>
    if e == 'e' || e == 'E' then
      let (mark, tail) := oneOf ['+', '-'] rest
      match digits tail with
      | some (power, tail) => (e :: mark ++ power, tail)
      | none => ([], text)
    else ([], text)
  | [] => ([], [])

/-- Splits off an integer in base sixteen, eight or two, if the text starts with one. -/
def prefixed (text : List Char) : Option (List Char × List Char) :=
  match text with
  | '0' :: mark :: rest =>
    let based (isDigit : Char → Bool) : Option (List Char × List Char) :=
      match baseDigits isDigit rest with
      | ([], _) => none
      | (number, rest) =>
        let (long, rest) := oneOf ['l', 'L'] rest
        some ('0' :: mark :: number ++ long, rest)
    if mark == 'x' || mark == 'X' then
      based fun c => c.isDigit || ('a' ≤ c && c ≤ 'f') || ('A' ≤ c && c ≤ 'F')
    else if mark == 'o' || mark == 'O' then based fun c => '0' ≤ c && c ≤ '7'
    else if mark == 'b' || mark == 'B' then based fun c => c == '0' || c == '1'
    else none
  | _ => none

/-- Splits off a number without a base mark, and says whether it is an integer or a float. -/
def plain (text : List Char) : Option (Kind × List Char × List Char) :=
  let float (number rest : List Char) : Kind × List Char × List Char :=
    let (imaginary, rest) := oneOf ['j', 'J'] rest
    (.float, number ++ imaginary, rest)
  match digits text with
  | some (whole, '.' :: rest) =>
    let (fraction, rest) := (digits rest).getD ([], rest)
    let (power, rest) := exponent rest
    some (float (whole ++ '.' :: fraction ++ power) rest)
  | some (whole, rest) =>
    match exponent rest with
    | ([], _) =>
      let (mark, rest) := oneOf ['l', 'L', 'j', 'J'] rest
      some (.integer, whole ++ mark, rest)
    | (power, rest) => some (float (whole ++ power) rest)
  | none =>
    match text with
    | '.' :: rest =>
      match digits rest with
      | some (fraction, rest) =>
        let (power, rest) := exponent rest
        some (float ('.' :: fraction ++ power) rest)
      | none => none
    | _ => none

/-- Splits the longest number literal off a text, and says what kind it is. -/
def split (text : List Char) : Option (Kind × List Char × List Char) :=
  match prefixed text with
  | some (number, rest) => some (.integer, number, rest)
  | none => plain text

end UsageAudit.Script.Number
