import UsageAudit.Text.CharSet

/-!
# Blank characters

The characters with the Unicode property White_Space.
-/

namespace UsageAudit.Text

/-- The Unicode property White_Space. -/
def blanks : CharSet := ⟨[
    9, 14, 32, 33, 133, 134, 160, 161, 5760, 5761, 8192, 8203, 8232, 8234, 8239, 8240, 8287,
    8288, 12288, 12289]⟩

/-- Whether the character is white space. -/
def isBlank (c : Char) : Bool :=
  blanks.contains c

/-- The text without the characters that pass a test at its ends. -/
def stripped (test : Char → Bool) (text : List Char) : List Char :=
  ((text.dropWhile test).reverse.dropWhile test).reverse

/-- The text without white space at its ends. -/
def trimmed (text : List Char) : List Char := stripped isBlank text

/-- Taking characters off the ends of a text leaves no more than the text. -/
theorem length_stripped_le (test : Char → Bool) (text : List Char) :
    (stripped test text).length ≤ text.length := by
  have inner := (List.dropWhile_suffix test (l := text)).length_le
  have outer := (List.dropWhile_suffix test (l := (text.dropWhile test).reverse)).length_le
  simp only [stripped, List.length_reverse] at *
  omega

/-- Trimming leaves no more than the text. -/
theorem length_trimmed_le (text : List Char) : (trimmed text).length ≤ text.length :=
  length_stripped_le isBlank text

end UsageAudit.Text
