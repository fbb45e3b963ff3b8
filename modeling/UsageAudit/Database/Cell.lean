import UsageAudit.Decimal.Reading

/-!
# Cells

What is written into a column need not be of the column's own kind. A column of texts turns numbers
into text and keeps bytes as they are; a column of numbers turns texts that spell numbers into numbers
and keeps all else. Nothing at all can be written into a column as well, where the column allows it.
-/

namespace UsageAudit.Database

/-- What is written into a column. -/
inductive Cell where
  | null
  | int (value : Int)
  | text (value : String)
  | blob (bytes : List UInt8)
  deriving DecidableEq, Repr

/-- What a column of texts holds. -/
inductive Content where
  | text (value : String)
  | blob (bytes : List UInt8)
  deriving DecidableEq, Repr

/-- What a column of numbers holds. -/
inductive Amount where
  | number (value : Rat)
  | text (value : String)
  | blob (bytes : List UInt8)
  deriving DecidableEq, Repr

/-- The bounds of the whole numbers that a column holds as such. -/
def wholeBound : Nat := Nat.pow 2 63

/-- Whether the whole number can be held as such. -/
def isWhole (n : Int) : Bool := decide (-(wholeBound : Int) ≤ n) && decide (n < wholeBound)

/-- The characters that may surround a number. -/
def isPadding (c : Char) : Bool := c == ' ' || decide (9 ≤ c.toNat) && decide (c.toNat ≤ 13)

/-- The number that a text spells, blanks around it aside. -/
def spelledNumber? (text : String) : Option Rat :=
  let digits := ((text.toList.dropWhile isPadding).reverse.dropWhile isPadding).reverse
  let reading :=
    match digits with
    | '-' :: rest => Decimal.readUnsigned true rest
    | '+' :: rest => Decimal.readUnsigned false rest
    | rest => Decimal.readUnsigned false rest
  match reading with
  | some (.finite negative digits exponent) =>
    if exponent.natAbs ≤ 400 then
      let size : Rat := OfScientific.ofScientific digits (decide (exponent < 0)) exponent.natAbs
      some (if negative then -size else size)
    else none
  | _ => none

namespace Cell

/-- What a column of texts makes of a cell, if it is not null. -/
def content? : Cell → Option Content
  | .null => none
  | .int value => some (.text (toString value))
  | .text value => some (.text value)
  | .blob bytes => some (.blob bytes)

/-- What a column of numbers makes of a cell, if it is not null. -/
def amount? : Cell → Option Amount
  | .null => none
  | .int value => some (.number value)
  | .text value =>
    match spelledNumber? value with
    | some number => some (.number number)
    | none => some (.text value)
  | .blob bytes => some (.blob bytes)

/-- The whole number that a column of numbers makes of a cell. -/
def whole? (cell : Cell) : Option Int :=
  match cell.amount? with
  | some (.number value) => if value.den = 1 && isWhole value.num then some value.num else none
  | _ => none

end Cell

namespace Amount

/-- Whether the first amount comes before the second or equals it: numbers come before texts, and
texts before bytes. -/
def notAfter : Amount → Amount → Bool
  | .number x, .number y => decide (x ≤ y)
  | .number _, _ => true
  | .text _, .number _ => false
  | .text x, .text y => !decide (y < x)
  | .text _, .blob _ => true
  | .blob x, .blob y => !decide (y < x)
  | .blob _, _ => false

end Amount

namespace Content

/-- Whether the byte goes on with a character that bytes before it have begun. -/
def goesOn (byte : UInt8) : Bool := byte &&& 0xC0 == 0x80

/-- The bits that the first byte of a character gives. -/
def leadBits (byte : UInt8) : Nat :=
  let byte := byte.toNat
  if byte < 0xE0 then byte - 0xC0
  else if byte < 0xF0 then byte - 0xE0
  else if byte < 0xF8 then byte - 0xF0
  else if byte < 0xFC then byte - 0xF8
  else if byte < 0xFE then byte - 0xFC
  else 0

/-- The character with the given code; codes of no character, and those that ask for no more than one
byte, give the sign for an unknown character. -/
def wideChar (code : Nat) : Char :=
  let code := code % Nat.pow 2 32
  if code < 0x80 || code == 0xFFFE || code == 0xFFFF then '\uFFFD'
  else if code.isValidChar then Char.ofNat code
  else '\uFFFD'

/-- The text that bytes stand for, wherever it is not spelled right as well as it can be made out. -/
def decode : List UInt8 → List Char
  | [] => []
  | byte :: rest =>
    if byte < 0xC0 then Char.ofNat byte.toNat :: decode rest
    else
      let more := rest.takeWhile goesOn
      wideChar (more.foldl (fun code byte => 64 * code + (byte &&& 0x3F).toNat) (leadBits byte)) ::
        decode (rest.dropWhile goesOn)
termination_by bytes => bytes.length
decreasing_by
  · simp
  · have := (List.dropWhile_suffix goesOn (l := rest)).length_le
    simp only [List.length_cons]
    omega

/-- The characters of a content. -/
def chars : Content → List Char
  | .text value => value.toList
  | .blob bytes => decode bytes

/-- The text that a content is, if it is not kept as bytes. -/
def text? : Content → Option String
  | .text value => some value
  | .blob _ => none

end Content

end UsageAudit.Database
