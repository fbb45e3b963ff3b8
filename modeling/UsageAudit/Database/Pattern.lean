/-!
# Patterns

In a pattern a percent sign stands for any text and an underscore for any character; after a backslash
a character stands for itself. Letters from A to Z stand for themselves in either case.
-/

namespace UsageAudit.Database.Pattern

/-- Whether two characters are equal but for the case of letters from A to Z. -/
def sameLetter (a b : Char) : Bool := a.toLower == b.toLower

/-- Whether a pattern admits a text. -/
def admits : List Char → List Char → Bool
  | [], text => text.isEmpty
  | '%' :: pattern, [] => admits pattern []
  | '%' :: pattern, c :: text => admits pattern (c :: text) || admits ('%' :: pattern) text
  | '_' :: _, [] => false
  | '_' :: pattern, _ :: text => admits pattern text
  | ['\\'], _ => false
  | '\\' :: _ :: _, [] => false
  | '\\' :: letter :: pattern, c :: text => sameLetter letter c && admits pattern text
  | _ :: _, [] => false
  | letter :: pattern, c :: text => sameLetter letter c && admits pattern text
termination_by pattern text => (text.length, pattern.length)

/-- The pattern that admits a text and, but for case, nothing else. -/
def escaped : List Char → List Char
  | [] => []
  | c :: text =>
    if c = '%' ∨ c = '_' ∨ c = '\\' then '\\' :: c :: escaped text else c :: escaped text

/-- The pattern for what lies below a dotted name. -/
def below (name : List Char) : List Char := escaped name ++ ['.', '%']

/-- What is seen of a text where a null character ends it. -/
def visible (text : List Char) : List Char := text.takeWhile fun c => c != '\x00'

/-- The empty pattern admits the empty text alone. -/
@[simp]
theorem admits_nil (text : List Char) : admits [] text = text.isEmpty := by
  cases text <;> simp [admits]

/-- A percent sign at the end admits whatever is left. -/
@[simp]
theorem admits_percent (text : List Char) : admits ['%'] text = true := by
  induction text with
  | nil => simp [admits]
  | cons c text ih => simp [admits, ih]

end UsageAudit.Database.Pattern
