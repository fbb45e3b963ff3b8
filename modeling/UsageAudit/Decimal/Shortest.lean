/-!
# Shortest decimals of doubles

A double is a whole number times a power of two. Its shortest decimal has the fewest digits among the
decimals that are nearer to it than to any other double, and of several such the one next to it. All
comparisons are made on whole numbers, after scaling by powers of two and ten.
-/

namespace UsageAudit.Decimal

/-- The parts of a double. -/
inductive Parts where
  /-- `mantissa` times two to the power of `exponent`. `narrow` says whether the double below is
  nearer than the one above. -/
  | finite (negative : Bool) (mantissa : Nat) (exponent : Int) (narrow : Bool)
  | infinite (negative : Bool)
  | notANumber
  deriving DecidableEq, Repr

/-- The parts of a double, from its bits. -/
def partsOf (x : Float) : Parts :=
  let bits : Nat := x.toBits.toNat
  let negative := bits / Nat.pow 2 63 == 1
  let exponent : Nat := bits / Nat.pow 2 52 % 2048
  let fraction : Nat := bits % Nat.pow 2 52
  if exponent = 2047 then if fraction = 0 then .infinite negative else .notANumber
  else if exponent = 0 then .finite negative fraction (-1074) false
  else .finite negative (Nat.pow 2 52 + fraction) ((exponent : Int) - 1075)
    (fraction == 0 && exponent > 1)

/-- Two to the power of `exponent`, times `scale`, which is a high enough power of two. -/
def scaledPower (base : Nat) (exponent : Int) (scale : Nat) : Nat :=
  Nat.pow base (exponent + scale).toNat

/-- The least `n` at most `fuel` steps up from `start` at which the test holds. -/
def firstFrom (test : Nat → Bool) : Nat → Nat → Nat
  | 0, start => start
  | fuel + 1, start => if test start then start else firstFrom test fuel (start + 1)

/-- The decimal place of the leading digit of `mantissa` times two to the power of `exponent`: the
least power of ten above it. The logarithm in base two gives a place to start from. -/
def magnitude (mantissa : Nat) (exponent : Int) : Int :=
  let scale : Nat := 1100
  let offset : Nat := 400
  let value : Nat := mantissa * scaledPower 2 exponent scale * Nat.pow 10 offset
  let guess : Int := (mantissa.log2 + exponent) * 30103 / 100000 - 1 + offset
  let place : Nat := firstFrom (fun n => decide (value < Nat.pow 10 n * Nat.pow 2 scale)) 8 guess.toNat
  (place : Int) - offset

/-- The decimal with at most `count` digits next to the value, as its digits and its exponent, if it
reads back as the value. -/
def withDigits (mantissa : Nat) (exponent : Int) (narrow : Bool) (place : Int) (count : Nat) :
    Option (Nat × Int) :=
  let step : Int := place - count
  let twos : Nat := 1102
  let tens : Nat := 400
  let unit : Nat := scaledPower 10 step tens * Nat.pow 2 twos
  let quarter := scaledPower 2 (exponent - 2) twos * Nat.pow 10 tens
  let value := 4 * mantissa * quarter
  let low := value - (if narrow then 1 else 2) * quarter
  let high := value + 2 * quarter
  let closed := mantissa % 2 == 0
  let inside (n : Nat) : Bool :=
    (low < n * unit || (closed && low == n * unit)) &&
      (n * unit < high || (closed && n * unit == high))
  let below := value / unit
  let above := below + 1
  let candidate :=
    match inside below, inside above with
    | true, true =>
      if value - below * unit < above * unit - value then some below
      else if above * unit - value < value - below * unit then some above
      else if below % 2 == 0 then some below else some above
    | true, false => some below
    | false, true => some above
    | false, false => none
  candidate.map fun n => (n, step)

/-- The shortest decimal of a positive value, with up to `fuel` more digits than `count`. -/
def shortestFrom (mantissa : Nat) (exponent : Int) (narrow : Bool) (place : Int) :
    Nat → Nat → Nat × Int
  | 0, _ => (mantissa, exponent)
  | fuel + 1, count =>
    match withDigits mantissa exponent narrow place count with
    | some found => found
    | none => shortestFrom mantissa exponent narrow place fuel (count + 1)

/-- The digits and the exponent of the shortest decimal of a value. -/
def shortest (mantissa : Nat) (exponent : Int) (narrow : Bool) : Nat × Int :=
  if mantissa = 0 then (0, 0)
  else shortestFrom mantissa exponent narrow (magnitude mantissa exponent) 17 1

/-- Drops zeros at the end of the digits of a number. -/
def withoutZeros : Nat → Nat → Int → Nat × Int
  | 0, digits, exponent => (digits, exponent)
  | fuel + 1, digits, exponent =>
    if digits ≠ 0 ∧ digits % 10 = 0 then withoutZeros fuel (digits / 10) (exponent + 1)
    else (digits, exponent)

/-- The digits of a number in base ten. -/
def digitsOf (n : Nat) : List Char := Nat.toDigits 10 n

/-- A decimal written with a point and without an exponent. `whole` is put behind a number without a
fraction. -/
def positional (digits : Nat) (exponent : Int) (whole : List Char) : List Char :=
  let text := digitsOf digits
  if 0 ≤ exponent then text ++ List.replicate exponent.natAbs '0' ++ whole
  else
    let places := exponent.natAbs
    if places < text.length then
      text.take (text.length - places) ++ '.' :: text.drop (text.length - places)
    else '0' :: '.' :: List.replicate (places - text.length) '0' ++ text

/-- A decimal written with one digit in front of the point and an exponent. -/
def scientific (digits : Nat) (exponent : Int) : List Char :=
  let text := digitsOf digits
  let power : Int := exponent + text.length - 1
  let head := text.take 1
  let fraction := if text.length = 1 then [] else '.' :: text.drop 1
  let mark := if power < 0 then ['e', '-'] else ['e']
  head ++ fraction ++ mark ++ digitsOf power.natAbs

/-- How doubles are written: what stands behind a whole number, and between which places of the
leading digit no exponent is used. -/
structure Style where
  whole : List Char
  least : Int
  most : Int

/-- A double in its shortest form. -/
def write (style : Style) (x : Float) : String :=
  match partsOf x with
  | .notANumber => "NaN"
  | .infinite negative => if negative then "-inf" else "inf"
  | .finite negative mantissa exponent narrow =>
    let (digits, exponent) := shortest mantissa exponent narrow
    let (digits, exponent) := withoutZeros 400 digits exponent
    let place : Int := exponent + (digitsOf digits).length
    let text :=
      if mantissa = 0 || (style.least < place && place ≤ style.most) then
        positional digits exponent style.whole
      else scientific digits exponent
    String.ofList (if negative then '-' :: text else text)

/-- A number rounded to hundredths, from its exact value; a tie goes to the even neighbour. -/
def hundredths (x : Float) : String :=
  match partsOf x with
  | .notANumber => "NaN"
  | .infinite negative => if negative then "-inf" else "inf"
  | .finite negative mantissa exponent _ =>
    let numerator := mantissa * 100 * Nat.pow 2 exponent.toNat
    let denominator := Nat.pow 2 (-exponent).toNat
    let below := numerator / denominator
    let twice := 2 * (numerator % denominator)
    let rounded :=
      if twice < denominator then below
      else if denominator < twice then below + 1
      else if below % 2 == 0 then below
      else below + 1
    let fraction := digitsOf (rounded % 100)
    let text := digitsOf (rounded / 100) ++ '.' :: List.replicate (2 - fraction.length) '0' ++ fraction
    String.ofList (if negative then '-' :: text else text)

end UsageAudit.Decimal
