import UsageAudit.Json

/-!
# Reading JSON text

JSON text is read by recursive descent with a bound on the nesting. A number that is written without
a fraction and without an exponent and that fits into a machine word stays a whole number. Every other
number is a double: its digits, as many as fit into a machine word, are rounded first and then scaled
by a power of ten.
-/

namespace UsageAudit.Json

/-- Skips white space. -/
def skipBlanks (text : List Char) : List Char :=
  text.dropWhile fun c => c == ' ' || c == '\n' || c == '\t' || c == '\r'

/-- The text behind the given characters, if it starts with them. -/
def behind? : List Char → List Char → Option (List Char)
  | [], text => some text
  | _ :: _, [] => none
  | c :: expected, d :: text => if c = d then behind? expected text else none

/-- The value of a hexadecimal digit. -/
def hexValue? (c : Char) : Option Nat :=
  if c.isDigit then some (c.toNat - 48)
  else if 'a' ≤ c ∧ c ≤ 'f' then some (c.toNat - 87)
  else if 'A' ≤ c ∧ c ≤ 'F' then some (c.toNat - 55)
  else none

/-- A code unit written with four hexadecimal digits. -/
def codeUnit? : List Char → Option (Nat × List Char)
  | a :: b :: c :: d :: rest => do
    let a ← hexValue? a
    let b ← hexValue? b
    let c ← hexValue? c
    let d ← hexValue? d
    return (4096 * a + 256 * b + 16 * c + d, rest)
  | _ => none

/-- A character written as one code unit, or as two that belong together. -/
def unicodeEscape? (text : List Char) : Option (Char × List Char) := do
  let (unit, rest) ← codeUnit? text
  if 0xD800 ≤ unit ∧ unit < 0xDC00 then
    let (low, rest) ← codeUnit? (← behind? ['\\', 'u'] rest)
    if 0xDC00 ≤ low ∧ low < 0xE000 then
      return (Char.ofNat (0x10000 + 0x400 * (unit - 0xD800) + (low - 0xDC00)), rest)
    else none
  else if 0xDC00 ≤ unit ∧ unit < 0xE000 then none
  else return (Char.ofNat unit, rest)

/-- The character that an escape stands for, read behind its backslash. -/
def escape? : List Char → Option (Char × List Char)
  | '"' :: rest => some ('"', rest)
  | '\\' :: rest => some ('\\', rest)
  | '/' :: rest => some ('/', rest)
  | 'b' :: rest => some ('\x08', rest)
  | 'f' :: rest => some ('\x0c', rest)
  | 'n' :: rest => some ('\n', rest)
  | 'r' :: rest => some ('\r', rest)
  | 't' :: rest => some ('\t', rest)
  | 'u' :: rest => unicodeEscape? rest
  | _ => none

/-- The characters of a text up to its closing quote, put in front of the reversed `done`. -/
def characters? : Nat → List Char → List Char → Option (List Char × List Char)
  | 0, _, _ => none
  | _ + 1, _, [] => none
  | fuel + 1, done, c :: rest =>
    if c = '"' then some (done.reverse, rest)
    else if c = '\\' then
      match escape? rest with
      | some (c, rest) => characters? fuel (c :: done) rest
      | none => none
    else if c.toNat < 32 then none
    else characters? fuel (c :: done) rest

/-- A text, read behind its opening quote. -/
def text? (text : List Char) : Option (String × List Char) :=
  (characters? (text.length + 1) [] text).map fun (characters, rest) =>
    (String.ofList characters, rest)

/-- The digits of a number so far: those that fit into a machine word, and how many places the number
is greater. -/
structure Digits where
  value : Nat
  exponent : Int

/-- Takes the digits of a whole number. From the first digit on that does not fit, digits only count as
places. -/
def wholeDigits (digits : List Char) : Digits :=
  (digits.foldl (fun (state : Digits × Bool) c =>
    let next := 10 * state.1.value + (c.toNat - 48)
    if state.2 && next < Datum.natBound then (⟨next, 0⟩, true)
    else (⟨state.1.value, state.1.exponent + 1⟩, false)) (⟨0, 0⟩, true)).1

/-- Takes the digits of a fraction, up to the first one that does not fit. -/
def fractionDigits (whole : Digits) (digits : List Char) : Digits :=
  (digits.foldl (fun (state : Digits × Bool) c =>
    let next := 10 * state.1.value + (c.toNat - 48)
    if state.2 && next < Datum.natBound then (⟨next, state.1.exponent - 1⟩, true)
    else (state.1, false)) (whole, true)).1

/-- Scales a double by a power of ten, in steps that are doubles themselves. A result that is too large
is refused. -/
def scaled? : Nat → Float → Int → Option Float
  | 0, value, _ => some value
  | fuel + 1, value, exponent =>
    if exponent.natAbs ≤ 308 then
      let power := Float.ofScientific 1 false exponent.natAbs
      if 0 ≤ exponent then
        let result := value * power
        if result.isInf then none else some result
      else some (value / power)
    else if value == 0.0 then some value
    else if 0 ≤ exponent then none
    else scaled? fuel (value / Float.ofScientific 1 false 308) (exponent + 308)

/-- The double of a number. -/
def Digits.real? (digits : Digits) (negative : Bool) : Option Json :=
  (scaled? 8 (Float.ofNat digits.value) digits.exponent).map fun value =>
    .real (if negative then -value else value)

/-- The whole number of a number without fraction and exponent, or its double if it does not fit. -/
def Digits.whole? (digits : Digits) (negative : Bool) : Option Json :=
  if digits.exponent ≠ 0 then digits.real? negative
  else if negative then
    if digits.value = 0 ∨ Datum.natBound / 2 < digits.value then digits.real? true
    else some (.int (-(digits.value : Int)))
  else some (.int digits.value)

/-- Exponents beyond this bound act like it. -/
def exponentBound : Nat := Nat.pow 10 6

/-- Reads an exponent, behind its letter. -/
def exponent? (text : List Char) : Option (Int × List Char) :=
  let (negative, text) := match text with
    | '-' :: rest => (true, rest)
    | '+' :: rest => (false, rest)
    | _ => (false, text)
  let digits := text.takeWhile Char.isDigit
  if digits.isEmpty then none
  else
    let size := digits.foldl (fun n c => min exponentBound (10 * n + (c.toNat - 48))) 0
    some (if negative then -(size : Int) else size, text.dropWhile Char.isDigit)

/-- Reads a number behind its sign. -/
def number? (negative : Bool) (text : List Char) : Option (Json × List Char) := do
  let digits := text.takeWhile Char.isDigit
  let rest := text.dropWhile Char.isDigit
  if digits.isEmpty ∨ (digits.head? = some '0' ∧ digits.length ≠ 1) then none
  else
    let whole := wholeDigits digits
    let fraction := match rest with
      | '.' :: rest => some (rest.takeWhile Char.isDigit, rest.dropWhile Char.isDigit)
      | _ => none
    let significand := match fraction with
      | some (digits, _) => fractionDigits whole digits
      | none => whole
    let rest := match fraction with
      | some (_, rest) => rest
      | none => rest
    if (fraction.map fun (digits, _) => digits.isEmpty) = some true then none
    else
      match rest with
      | c :: behind =>
        if c = 'e' ∨ c = 'E' then do
          let (exponent, rest) ← exponent? behind
          let digits : Digits := ⟨significand.value, significand.exponent + exponent⟩
          return (← digits.real? negative, rest)
        else if fraction.isSome then return (← significand.real? negative, rest)
        else return (← significand.whole? negative, rest)
      | [] =>
        if fraction.isSome then return (← significand.real? negative, rest)
        else return (← significand.whole? negative, rest)

/-- Reads a value or a member together with what follows it. -/
abbrev Step (α : Type) := List Char → Option (α × List Char)

/-- Reads the items of an array or the members of an object up to the closing bracket. -/
def sequence? {α : Type} (close : Char) (item : Step α) :
    Nat → List α → List Char → Option (List α × List Char)
  | 0, _, _ => none
  | fuel + 1, done, text => do
    let (found, rest) ← item (skipBlanks text)
    match skipBlanks rest with
    | c :: rest =>
      if c = ',' then sequence? close item fuel (found :: done) rest
      else if c = close then return ((found :: done).reverse, rest)
      else none
    | [] => none

/-- Reads what a bracket opens, up to the closing bracket. -/
def enclosed? {α : Type} (close : Char) (item : Step α) (text : List Char) :
    Option (List α × List Char) :=
  match skipBlanks text with
  | c :: rest => if c = close then some ([], rest) else sequence? close item (text.length + 1) [] text
  | [] => none

/-- Reads a member of an object. -/
def namedValue? (value : Step Json) (text : List Char) : Option ((String × Json) × List Char) := do
  let (name, rest) ← text? (← behind? ['"'] text)
  let (value, rest) ← value (← behind? [':'] (skipBlanks rest))
  return ((name, value), rest)

/-- The members of which no later one has the same name. -/
def lastMembers : List (String × Json) → List (String × Json)
  | [] => []
  | member :: rest =>
    if rest.any fun later => later.1 == member.1 then lastMembers rest
    else member :: lastMembers rest

/-- Reads a value that is nested less than `depth` deep. -/
def value? : Nat → Step Json
  | 0, _ => none
  | depth + 1, text =>
    match skipBlanks text with
    | '[' :: rest =>
      if depth = 0 then none
      else (enclosed? ']' (value? depth) rest).map fun (items, rest) => (.arr items, rest)
    | '{' :: rest =>
      if depth = 0 then none
      else (enclosed? '}' (namedValue? (value? depth)) rest).map fun (members, rest) =>
        (.obj (lastMembers members), rest)
    | '"' :: rest => (text? rest).map fun (text, rest) => (.str text, rest)
    | 'n' :: rest => (behind? ['u', 'l', 'l'] rest).map fun rest => (.null, rest)
    | 't' :: rest => (behind? ['r', 'u', 'e'] rest).map fun rest => (.bool true, rest)
    | 'f' :: rest => (behind? ['a', 'l', 's', 'e'] rest).map fun rest => (.bool false, rest)
    | '-' :: rest => number? true rest
    | text => number? false text

/-- Reads a text that holds one value, nested less than 128 deep. -/
def ofText? (text : String) : Option Json :=
  match value? 128 text.toList with
  | some (value, rest) => if (skipBlanks rest).isEmpty then some value else none
  | none => none

end UsageAudit.Json
