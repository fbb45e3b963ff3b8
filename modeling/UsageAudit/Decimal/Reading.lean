/-!
# Reading decimal numbers

A decimal number is a sign, digits with or without a point among them, and perhaps an exponent. The
words for infinity and for no number are read as well, in letters of any case.
-/

namespace UsageAudit.Decimal

/-- What a text reads as. -/
inductive Reading where
  /-- `digits` times ten to the power of `exponent`, with its sign. -/
  | finite (negative : Bool) (digits : Nat) (exponent : Int)
  | infinite (negative : Bool)
  | notANumber
  deriving DecidableEq, Repr

/-- The value of a row of digits. -/
def digitsValue (digits : List Char) : Nat :=
  digits.foldl (fun value c => 10 * value + (c.toNat - 48)) 0

/-- Reads an exponent that takes up the whole text. -/
def readExponent : List Char → Option Int
  | '-' :: digits => if digits.isEmpty || !digits.all Char.isDigit then none
    else some (-(digitsValue digits : Int))
  | '+' :: digits => if digits.isEmpty || !digits.all Char.isDigit then none
    else some (digitsValue digits)
  | digits => if digits.isEmpty || !digits.all Char.isDigit then none
    else some (digitsValue digits)

/-- Reads a number without a sign that takes up the whole text. -/
def readUnsigned (negative : Bool) (text : List Char) : Option Reading :=
  let whole := text.takeWhile Char.isDigit
  let rest := text.dropWhile Char.isDigit
  let fraction := match rest with
    | '.' :: rest => rest.takeWhile Char.isDigit
    | _ => []
  let rest := match rest with
    | '.' :: rest => rest.dropWhile Char.isDigit
    | _ => rest
  let digits := whole ++ fraction
  if digits.isEmpty then none
  else match rest with
    | [] => some (.finite negative (digitsValue digits) (-(fraction.length : Int)))
    | e :: rest =>
      if e == 'e' || e == 'E' then
        (readExponent rest).map fun exponent =>
          .finite negative (digitsValue digits) (exponent - fraction.length)
      else none

/-- Reads a word for infinity or for no number, or else a number without a sign. -/
def readMagnitude (negative : Bool) (text : List Char) : Option Reading :=
  let lower := text.map Char.toLower
  if lower == ['i', 'n', 'f'] || lower == ['i', 'n', 'f', 'i', 'n', 'i', 't', 'y'] then
    some (.infinite negative)
  else if lower == ['n', 'a', 'n'] then some .notANumber
  else readUnsigned negative text

/-- Reads a number that takes up the whole text. -/
def read : List Char → Option Reading
  | '-' :: text => readMagnitude true text
  | '+' :: text => readMagnitude false text
  | text => readMagnitude false text

/-- Reads a count that takes up the whole text and lies below the bound. -/
def readCount (bound : Nat) (text : List Char) : Option Nat :=
  let digits := match text with
    | '+' :: digits => digits
    | digits => digits
  if digits.isEmpty || !digits.all Char.isDigit then none
  else
    let value := digitsValue digits
    if value < bound then some value else none

/-- The double nearest to a number. Exponents so large or small that every double is on one side are
settled without computing the power. -/
def Reading.toFloat : Reading → Float
  | .notANumber => 0.0 / 0.0
  | .infinite negative => if negative then -1.0 / 0.0 else 1.0 / 0.0
  | .finite negative digits exponent =>
    let magnitude : Float :=
      if digits = 0 then 0.0
      else
        let size : Int := (Nat.toDigits 10 digits).length + exponent
        if size > 400 then 1.0 / 0.0
        else if size < -400 then 0.0
        else if exponent < 0 then Float.ofScientific digits true exponent.natAbs
        else Float.ofScientific digits false exponent.natAbs
    if negative then -magnitude else magnitude

end UsageAudit.Decimal
