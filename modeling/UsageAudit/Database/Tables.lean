import UsageAudit.Database.Cell
import UsageAudit.Database.Numbered

/-!
# Tables

A database of repositories, their symbols, the parameters of these, and examples of code. A record
names the columns it fills; it is refused if a column is unknown, if a column that must not be empty
is, if something that has to be unique is there already, or if what it belongs to is not there.

The index of words of the examples follows every example that is added or taken away, but none that
is changed. It may be missing; making the database ready brings it back, adds the examples it does not
hold, and stamps the version of the tables.
-/

namespace UsageAudit.Database

/-- The tables that records can be added to. -/
inductive Table where
  | properties | repositories | symbols | parameters | examples
  deriving DecidableEq, Repr

namespace Table

/-- The name of a table. -/
def name : Table → String
  | .properties => "repo_meta"
  | .repositories => "repositories"
  | .symbols => "symbols"
  | .parameters => "parameters"
  | .examples => "code_examples"

/-- The columns of a table. -/
def columns : Table → List String
  | .properties => ["key", "value"]
  | .repositories => ["id", "name", "source_url", "indexed_at"]
  | .symbols => ["id", "repo_id", "kind", "name", "qualified_name", "return_type"]
  | .parameters => ["id", "symbol_id", "name", "type", "position", "default_value", "kind"]
  | .examples => ["id", "repo_name", "source_url", "content", "summary"]

/-- All tables. -/
def all : List Table := [.properties, .repositories, .symbols, .parameters, .examples]

/-- The table of the given name. -/
def ofName? (text : String) : Option Table := all.find? fun table => table.name == text

/-- Every table is found by its name. -/
theorem ofName?_name (table : Table) : ofName? table.name = some table := by
  cases table <;> rfl

end Table

/-- What is written into the columns of one row. -/
abbrev Record := List (String × Cell)

namespace Record

/-- What is written into a column, if the record fills it. -/
def find? (record : Record) (column : String) : Option Cell :=
  (List.find? (fun entry => entry.1.toLower == column) record).map Prod.snd

/-- What is written into a column; nothing, if the record does not fill it. -/
def cell (record : Record) (column : String) : Cell := (record.find? column).getD .null

/-- The number a record comes with, if it comes with one; no answer if it cannot be one. -/
def number? (record : Record) : Option (Option Int) :=
  match record.cell "id" with
  | .null => some none
  | cell => cell.whole?.map some

/-- Whether a record fills columns of the table and no others. -/
def fits (record : Record) (table : Table) : Bool :=
  !record.isEmpty && record.all fun entry => table.columns.contains entry.1.toLower

end Record

/-- A symbol of a repository. -/
structure SymbolRow where
  repository : Int
  kind : Content
  qualified : Content
  returns : Option Content
  deriving DecidableEq, Repr

/-- A parameter of a symbol. -/
structure ParameterRow where
  symbol : Int
  name : Content
  declared : Option Content
  position : Amount
  default : Option Content
  kind : Content
  deriving DecidableEq, Repr

/-- An example of code. -/
structure ExampleRow where
  content : Content
  summary : Option Content
  deriving DecidableEq, Repr

namespace Record

/-- The symbol of a record, if no column that must not be empty is. -/
def symbol? (record : Record) : Option SymbolRow := do
  let row : SymbolRow := {
    repository := ← (record.cell "repo_id").whole?
    kind := ← (record.cell "kind").content?
    qualified := ← (record.cell "qualified_name").content?
    returns := (record.cell "return_type").content? }
  let _ ← (record.cell "name").content?
  return row

/-- The parameter of a record, if no column that must not be empty is. -/
def parameter? (record : Record) : Option ParameterRow := do
  return {
    symbol := ← (record.cell "symbol_id").whole?
    name := ← (record.cell "name").content?
    declared := (record.cell "type").content?
    position := ← (record.cell "position").amount?
    default := (record.cell "default_value").content?
    kind := ← ((record.find? "kind").getD (.text "positional")).content? }

/-- The example of a record, if its content is not empty. -/
def example? (record : Record) : Option ExampleRow := do
  return ⟨← (record.cell "content").content?, (record.cell "summary").content?⟩

end Record

/-- What the index of words holds of an example. -/
structure IndexedExample where
  content : Content
  summary : Content
  deriving DecidableEq, Repr

/-- What the index of words is to hold of an example: no summary counts as an empty one. -/
def ExampleRow.indexed (row : ExampleRow) : IndexedExample :=
  ⟨row.content, row.summary.getD (.text "")⟩

end Database

/-- The tables, and the index of words where there is one. -/
structure Database where
  properties : List (Option Database.Content × Option Database.Content)
  /-- The names of the repositories. -/
  repositories : Database.Numbered Database.Content
  symbols : Database.Numbered Database.SymbolRow
  parameters : Database.Numbered Database.ParameterRow
  examples : Database.Numbered Database.ExampleRow
  /-- What is indexed, by the numbers of the examples. -/
  index : Option (List (Int × Database.IndexedExample))
  deriving DecidableEq, Repr

namespace Database

/-- Tables without rows, and no index. -/
def empty : Database := ⟨[], .empty, .empty, .empty, .empty, none⟩

/-! ## Adding rows -/

/-- Adds a property. No two have the same key, though any number have none. -/
def insertProperty? (record : Record) (database : Database) : Option Database :=
  let key := (record.cell "key").content?
  let value := (record.cell "value").content?
  if key.isSome && database.properties.any fun entry => entry.1 == key then none
  else some { database with properties := database.properties ++ [(key, value)] }

/-- Adds a repository. No two have the same name. -/
def insertRepository? (record : Record) (database : Database) : Option Database := do
  let name ← (record.cell "name").content?
  if database.repositories.any (· == name) then none
  else
    let (_, rows) ← database.repositories.insert? (← record.number?) name
    return { database with repositories := rows }

/-- Whether two symbols are the same thing in the same repository. -/
def SymbolRow.clashes (a b : SymbolRow) : Bool :=
  a.repository == b.repository && a.kind == b.kind && a.qualified == b.qualified

/-- Adds a symbol of a repository that is there. -/
def insertSymbol? (record : Record) (database : Database) : Option Database := do
  let row ← record.symbol?
  if !database.repositories.has row.repository || database.symbols.any row.clashes then none
  else
    let (_, rows) ← database.symbols.insert? (← record.number?) row
    return { database with symbols := rows }

/-- Whether two parameters stand at the same place of the same symbol. -/
def ParameterRow.clashes (a b : ParameterRow) : Bool :=
  a.symbol == b.symbol && a.position == b.position

/-- Adds a parameter of a symbol that is there. -/
def insertParameter? (record : Record) (database : Database) : Option Database := do
  let row ← record.parameter?
  if !database.symbols.has row.symbol || database.parameters.any row.clashes then none
  else
    let (_, rows) ← database.parameters.insert? (← record.number?) row
    return { database with parameters := rows }

/-- Adds an example, to the index as well. -/
def addExample? (number : Option Int) (row : ExampleRow) (database : Database) :
    Option Database := do
  let (number, rows) ← database.examples.insert? number row
  return { database with
    examples := rows
    index := database.index.map fun entries => entries ++ [(number, row.indexed)] }

/-- Adds the example of a record. -/
def insertExample? (record : Record) (database : Database) : Option Database := do
  let row ← record.example?
  database.addExample? (← record.number?) row

/-- Adds a row, unless the table refuses the record. -/
def insert? (table : Table) (record : Record) (database : Database) : Option Database :=
  if record.fits table then
    match table with
    | .properties => database.insertProperty? record
    | .repositories => database.insertRepository? record
    | .symbols => database.insertSymbol? record
    | .parameters => database.insertParameter? record
    | .examples => database.insertExample? record
  else none

/-- Adds rows one after the other. On the left is the place of the first record that is refused, with
the rows before it added. -/
def insertAll (records : List (Table × Record)) (database : Database) :
    Except (Nat × Database) Database :=
  let rec go (place : Nat) (database : Database) :
      List (Table × Record) → Except (Nat × Database) Database
    | [] => .ok database
    | (table, record) :: rest =>
      match database.insert? table record with
      | none => .error (place, database)
      | some database => go (place + 1) database rest
  go 0 database records

/-! ## Examples and their index -/

/-- Takes an example away, from the index as well. -/
def deleteExample (number : Int) (database : Database) : Database :=
  { database with
    examples := database.examples.erase number
    index := database.index.map fun entries => entries.filter fun entry => entry.1 != number }

/-- Puts an example, under a number of its own, in the place of the one that is there. What the index
holds of it stays as it was. -/
def changeExample? (number moved : Int) (row : ExampleRow) (database : Database) :
    Option Database := do
  let _ ← database.examples.get? number
  let rows ← database.examples.replace? number moved row
  return { database with examples := rows }

/-- Takes the index away. -/
def dropIndex (database : Database) : Database := { database with index := none }

/-- Brings the index back, and adds the examples that it does not hold. -/
def restoreIndex (database : Database) : Database :=
  let entries := database.index.getD []
  let missing := database.examples.rows.filter fun row =>
    !entries.any fun entry => entry.1 == row.1
  { database with
    index := some (entries ++ missing.map fun (number, row) => (number, row.indexed)) }

/-! ## The version -/

/-- The key of the version of the tables. -/
def versionKey : Option Content := some (.text "schema_version")

/-- The version of these tables. -/
def currentVersion : String := "1"

/-- Takes the version away. -/
def eraseVersion (database : Database) : Database :=
  { database with
    properties := database.properties.filter fun entry => entry.1 != versionKey }

/-- Stamps a version. -/
def setVersion (version : Option Content) (database : Database) : Database :=
  { database with
    properties := database.eraseVersion.properties ++ [(versionKey, version)] }

/-- The bound of the versions that are numbers of 32 bits. -/
def versionBound : Int := (Nat.pow 2 31 : Nat)

/-- The version that is stamped, zero if that is no number of 32 bits. -/
def version (database : Database) : Int :=
  match database.properties.find? fun entry => entry.1 == versionKey with
  | some (_, some (.text value)) =>
    match Decimal.readExponent value.toList with
    | some version => if -versionBound ≤ version ∧ version < versionBound then version else 0
    | none => 0
  | _ => 0

/-- Makes a database ready for use. -/
def ready (database : Database) : Database :=
  database.restoreIndex.setVersion (some (.text currentVersion))

/-- How many rows a table has. -/
def count (table : Table) (database : Database) : Nat :=
  match table with
  | .properties => database.properties.length
  | .repositories => database.repositories.rows.length
  | .symbols => database.symbols.rows.length
  | .parameters => database.parameters.rows.length
  | .examples => database.examples.rows.length

end Database

end UsageAudit
