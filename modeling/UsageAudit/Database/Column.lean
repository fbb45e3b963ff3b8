import UsageAudit.Database.Cell
import UsageAudit.Problem

/-!
# Reading columns

What is answered from a column of texts has to be text. Bytes in such a column make the answer
malformed, and the fault names the column and its place in the answer.
-/

namespace UsageAudit.Database

/-- What comes of reading a column of texts in which there are bytes. -/
def wrongColumn (place : Nat) (name : String) : SourceFault :=
  .malformed ("Invalid column type Blob at index: " ++ toString place ++ ", name: " ++ name)

/-- Reads a column of texts that must not be empty. -/
def readText (place : Nat) (name : String) : Content → Except SourceFault String
  | .text value => .ok value
  | .blob _ => .error (wrongColumn place name)

/-- Reads a column of texts. -/
def readOptional (place : Nat) (name : String) : Option Content → Except SourceFault (Option String)
  | none => .ok none
  | some content => (readText place name content).map some

/-- Text is read as it stands. -/
@[simp]
theorem readText_text (place : Nat) (name value : String) :
    readText place name (.text value) = .ok value := rfl

/-- Nothing is read as nothing. -/
@[simp]
theorem readOptional_none (place : Nat) (name : String) : readOptional place name none = .ok none :=
  rfl

end UsageAudit.Database
