/-!
# Pages of a database

The file of a database is cut into pages of one size. The rows of a table hang on a tree of pages: a
leaf holds rows in the order of their numbers, and a page above it says which pages hold the rows up to
which number. A row that is too long for its page goes on on pages of its own, each of which says which
one comes next.
-/

namespace UsageAudit.Database

/-- The number that bytes spell, the greatest first. -/
def numeral (bytes : List UInt8) : Nat := bytes.foldl (fun value byte => 256 * value + byte.toNat) 0

/-- The whole number that is spelled by a number of so many bits, half of which are below zero. -/
def signedNumeral (bits value : Nat) : Int :=
  if value < Nat.pow 2 (bits - 1) then value else (value : Int) - (Nat.pow 2 bits : Nat)

/-- The first bytes, so many of them, and those behind. -/
def splitBytes? (count : Nat) (bytes : List UInt8) : Option (List UInt8 × List UInt8) :=
  if count ≤ bytes.length then some (bytes.splitAt count) else none

/-- How many bytes of a number may go on. -/
def greatestBytes : Nat := 8

/-- A number at the start of bytes that takes as many of them as it needs, and what follows it. A byte
from 128 on goes on, unless no more may follow. -/
def readVarying? (more value : Nat) : List UInt8 → Option (Nat × List UInt8)
  | [] => none
  | byte :: rest =>
    match more with
    | 0 => some (256 * value + byte.toNat, rest)
    | more + 1 =>
      if byte.toNat < 128 then some (128 * value + byte.toNat, rest)
      else readVarying? more (128 * value + (byte.toNat - 128)) rest

/-- A file that is cut into pages. -/
structure Pages where
  bytes : ByteArray
  /-- How many bytes a page has. -/
  size : Nat
  /-- How many bytes at the end of each page are put to no use. -/
  spare : Nat

namespace Pages

/-- What every database begins with. -/
def signature : List UInt8 := "SQLite format 3".toUTF8.toList ++ [0]

/-- How many bytes the first page has in front of its content. -/
def headerLength : Nat := 100

/-- The pages of a file, unless it is no database: what stands in front of the first page gives the size
of the pages and some numbers that are the same in all databases. -/
def ofBytes? (bytes : ByteArray) : Option Pages :=
  let header := (bytes.extract 0 headerLength).toList
  let field (place length : Nat) : Nat := numeral ((header.drop place).take length)
  let size := if field 16 2 = 1 then 65536 else field 16 2
  let spare := field 20 1
  let sizes := (List.range 8).map fun doubled => 512 * Nat.pow 2 doubled
  if header.length = headerLength ∧ signature <+: header ∧ sizes.contains size ∧ 480 + spare ≤ size ∧
      field 19 1 ≤ 2 ∧ field 21 1 = 64 ∧ field 22 1 = 32 ∧ field 23 1 = 32 then
    some ⟨bytes, size, spare⟩
  else none

variable (pages : Pages)

/-- How many bytes of a page can be used. -/
def room : Nat := pages.size - pages.spare

/-- How many pages there are. -/
def count : Nat := pages.bytes.size / pages.size

/-- The bytes of the page with the given number; the first page has the number one. -/
def page? (number : Nat) : Option (List UInt8) :=
  if 1 ≤ number ∧ number ≤ pages.count then
    some (pages.bytes.extract ((number - 1) * pages.size) (number * pages.size)).toList
  else none

/-- How much of a row of the given length stands on the page of a leaf. -/
def localLength (length : Nat) : Nat :=
  let most := pages.room - 35
  let least := (pages.room - 12) * 32 / 255 - 23
  if length ≤ most then length
  else
    let fitting := least + (length - least) % (pages.room - 4)
    if fitting ≤ most then fitting else least

/-- So many bytes of a row from a page on that it goes on on. -/
def continued? : Nat → Nat → Nat → Option (List UInt8)
  | _, _, 0 => some []
  | 0, _, _ + 1 => none
  | left + 1, number, length + 1 => do
    let page ← pages.page? number
    let part := ((page.take pages.room).drop 4).take (length + 1)
    return part ++ (← continued? left (numeral (page.take 4)) (length + 1 - part.length))

/-- A row in a leaf, with its number. -/
def row? (cell : List UInt8) : Option (Int × List UInt8) := do
  let (length, cell) ← readVarying? greatestBytes 0 cell
  let (number, cell) ← readVarying? greatestBytes 0 cell
  let (start, cell) ← splitBytes? (pages.localLength length) cell
  let rest ← pages.continued? pages.count (numeral (cell.take 4)) (length - start.length)
  return (signedNumeral 64 number, start ++ rest)

/-- How deep a tree may be. -/
def greatestDepth : Nat := 20

/-- The rows of a tree that hangs on the page with the given number, in the order of their numbers. -/
def rows? : Nat → Nat → Option (List (Int × List UInt8))
  | 0, _ => none
  | depth + 1, number => do
    let page ← pages.page? number
    let header := if number = 1 then page.drop headerLength else page
    let count := numeral ((header.drop 3).take 2)
    let cells (start : Nat) : List (List UInt8) := (List.range count).map fun place =>
      page.drop (numeral ((header.drop (start + 2 * place)).take 2))
    match header.head? with
    | some 13 => (cells 8).mapM pages.row?
    | some 5 =>
      let rows ← (cells 12).mapM fun cell => rows? depth (numeral (cell.take 4))
      return rows.flatten ++ (← rows? depth (numeral ((header.drop 8).take 4)))
    | _ => none

end Pages

end UsageAudit.Database
