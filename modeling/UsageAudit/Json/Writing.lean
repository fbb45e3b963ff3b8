import UsageAudit.Decimal.Shortest
import UsageAudit.Digest
import UsageAudit.Json

/-!
# Writing JSON text

Values are written on one line without blanks. Doubles are written in their shortest form; a double
that is a whole number keeps a zero behind its point, so that it stays apart from a count.
-/

namespace UsageAudit.Json

/-- How doubles are written: with an exponent below a hundred-thousandth and from ten to the sixteenth
on. -/
def realStyle : Decimal.Style := ⟨['.', '0'], -5, 16⟩

/-- A character inside a text. -/
def writeChar (c : Char) : List Char :=
  if c = '"' then ['\\', '"']
  else if c = '\\' then ['\\', '\\']
  else if c.toNat < 32 then
    ['\\', 'u', '0', '0', Digest.hexDigit (c.toNat / 16), Digest.hexDigit (c.toNat % 16)]
  else [c]

/-- A text with its quotes. -/
def writeText (text : String) : String :=
  "\"" ++ String.ofList (text.toList.flatMap writeChar) ++ "\""

mutual

/-- The text of a value. -/
def toText : Json → String
  | .null => "null"
  | .bool value => if value then "true" else "false"
  | .int value => toString value
  | .real value => Decimal.write realStyle value
  | .str text => writeText text
  | .arr items => "[" ++ ",".intercalate (itemTexts items) ++ "]"
  | .obj members => "\x7b" ++ ",".intercalate (memberTexts members) ++ "\x7d"

/-- The texts of the items of an array. -/
def itemTexts : List Json → List String
  | [] => []
  | value :: rest => toText value :: itemTexts rest

/-- The texts of the members of an object. -/
def memberTexts : List (String × Json) → List String
  | [] => []
  | (name, value) :: rest => (writeText name ++ ":" ++ toText value) :: memberTexts rest

end

end UsageAudit.Json
