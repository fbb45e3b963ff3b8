import UsageAudit.Database.Pages
import UsageAudit.Database.Tables

/-!
# Stored databases

What is written into the columns of a row is stored as bytes, behind the kinds of what they stand for.
The first tree of a file lists the tables with the pages that their trees hang on. The number of a row
is stored with the row and not in its columns, and the greatest number that was ever given in a table of
its own.
-/

namespace UsageAudit.Database

/-- How many bytes a whole number of the given kind takes. -/
def wholeWidth? : Nat → Option Nat
  | 1 => some 1
  | 2 => some 2
  | 3 => some 3
  | 4 => some 4
  | 5 => some 6
  | 6 => some 8
  | _ => none

/-- What is stored under the given kind at the start of bytes, and what follows it. Fractions are not
read: no column of the tables asks for them. -/
def Cell.stored? (kind : Nat) (bytes : List UInt8) : Option (Cell × List UInt8) :=
  match kind with
  | 0 => some (.null, bytes)
  | 8 => some (.int 0, bytes)
  | 9 => some (.int 1, bytes)
  | kind =>
    if kind < 12 then do
      let width ← wholeWidth? kind
      let (digits, rest) ← splitBytes? width bytes
      return (.int (signedNumeral (8 * width) (numeral digits)), rest)
    else do
      let (content, rest) ← splitBytes? ((kind - 12) / 2) bytes
      if kind % 2 = 0 then return (.blob content, rest)
      else return (.text (← String.fromUTF8? ⟨content.toArray⟩), rest)

/-- The numbers that bytes spell one after the other, at most so many. -/
def readKinds? : Nat → List UInt8 → Option (List Nat)
  | _, [] => some []
  | 0, _ :: _ => none
  | left + 1, bytes => do
    let (kind, rest) ← readVarying? greatestBytes 0 bytes
    return kind :: (← readKinds? left rest)

/-- What is stored under the given kinds. -/
def readCells? : List Nat → List UInt8 → Option (List Cell)
  | [], _ => some []
  | kind :: kinds, bytes => do
    let (cell, rest) ← Cell.stored? kind bytes
    return cell :: (← readCells? kinds rest)

/-- What is written into the columns of a stored row. -/
def readRow? (row : List UInt8) : Option (List Cell) := do
  let (length, rest) ← readVarying? greatestBytes 0 row
  let (kinds, content) ← splitBytes? (length - (row.length - rest.length)) rest
  readCells? (← readKinds? kinds.length kinds) content

/-- A database as it is stored. -/
structure Stored where
  pages : Pages
  /-- The tables, with the pages that their trees hang on. -/
  trees : List (String × Nat)

namespace Stored

/-- The table and the page of its tree that a row of the first tree tells of. -/
def tree? : List Cell → Option (String × Nat)
  | .text "table" :: .text name :: _ :: .int number :: _ => some (name, number.toNat)
  | _ => none

/-- The database that is stored on pages. -/
def ofPages? (pages : Pages) : Option Stored := do
  let rows ← (← pages.rows? Pages.greatestDepth 1).mapM fun (_, row) => readRow? row
  return ⟨pages, rows.filterMap tree?⟩

variable (stored : Stored)

/-- Whether there is a table of the given name. -/
def hasTable (name : String) : Bool := stored.trees.any fun tree => tree.1 == name

/-- The rows of a table. A table that is missing has none. -/
def rows? (name : String) : Option (List (Int × List Cell)) :=
  match stored.trees.find? fun tree => tree.1 == name with
  | none => some []
  | some (_, number) => do
    (← stored.pages.rows? Pages.greatestDepth number).mapM fun (number, row) =>
      return (number, ← readRow? row)

/-- The rows of a table as records. -/
def records? (table : Table) : Option (List (Int × Record)) :=
  (stored.rows? table.name).map fun rows => rows.map fun (number, cells) =>
    (number, table.columns.zip cells)

/-- The greatest number that was ever given in a table. -/
def last? (table : Table) : Option Int := do
  let given ← stored.rows? "sqlite_sequence"
  return (given.findSome? fun (_, cells) =>
    match cells with
    | [.text name, .int number] => if name == table.name then some number else none
    | _ => none).getD 0

/-- The rows of a table by number. -/
def numbered? {ρ : Type} (table : Table) (read : Record → Option ρ) : Option (Numbered ρ) := do
  let rows ← (← stored.records? table).mapM fun (number, record) => return (number, ← read record)
  return ⟨rows, ← stored.last? table⟩

/-- What is indexed of an example, with the number of the example. -/
def indexed? : List Cell → Option (Int × IndexedExample)
  | [_, .int number, content, summary] => do
    return (number, ⟨← content.content?, ← summary.content?⟩)
  | _ => none

/-- The index of words, where there is one. -/
def index? : Option (Option (List (Int × IndexedExample))) :=
  if stored.hasTable "example_fts" then do
    return some (← (← stored.rows? "example_fts_content").mapM fun (_, cells) => indexed? cells)
  else some none

/-- The database that is stored, if all of it can be read. -/
def database? : Option Database := do
  let properties ← stored.records? .properties
  return {
    properties := properties.map fun (_, record) =>
      ((record.cell "key").content?, (record.cell "value").content?)
    repositories := ← stored.numbered? .repositories fun record => (record.cell "name").content?
    symbols := ← stored.numbered? .symbols Record.symbol?
    parameters := ← stored.numbered? .parameters Record.parameter?
    examples := ← stored.numbered? .examples Record.example?
    index := ← stored.index? }

end Stored

end UsageAudit.Database
