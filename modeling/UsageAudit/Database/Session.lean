import UsageAudit.Auditor
import UsageAudit.Database.ExampleStore
import UsageAudit.Database.SymbolStore

/-!
# Audits over a database

An auditor that asks one database both for symbols and for examples. It asks through one pool, or
through two pools that are closed one by one.
-/

namespace UsageAudit.Database

/-- An auditor over a database. -/
structure Session where
  database : Database
  auditor : Auditor Pool Pool
  /-- Whether symbols and examples are asked for through the same pool. -/
  shared : Bool

namespace Session

/-- What is asked. -/
def sources {α : Type} [Scalar α] (session : Session) : Sources α Pool Pool :=
  ⟨session.database.graph, some session.database.exampleIndex⟩

/-- A new auditor over the database, which is made ready. -/
def start (database : Database) (path : String) (size : Nat) (shared : Bool) : Session :=
  let pool := Pool.ofSize path (if shared then size else Pool.usualSize)
  ⟨database.ready, .fresh pool pool, shared⟩

/-- Closes the pool for symbols. -/
def closeGraph (session : Session) : Session :=
  let auditor := session.auditor
  { session with
    auditor := { auditor with
      graph := auditor.graph.close
      examples := if session.shared then auditor.examples.close else auditor.examples } }

/-- Closes the pool for examples. -/
def closeExamples (session : Session) : Session :=
  let auditor := session.auditor
  { session with
    auditor := { auditor with
      graph := if session.shared then auditor.graph.close else auditor.graph
      examples := auditor.examples.close } }

/-- Closes the auditor and with it the pools. -/
def close {α : Type} [Scalar α] (session : Session) : Session :=
  { session with auditor := session.auditor.close (session.sources (α := α)) }

/-- Answers a request for a script. -/
def check {α : Type} [Scalar α] (settings : Settings α) (options : ReportOptions)
    (script path : String) (session : Session) : Response α × Session :=
  let (response, auditor) :=
    session.auditor.check session.sources settings options script path false
  (response, { session with auditor := auditor })

/-- How many rows a table has; without a table it is the index of words that is counted. -/
def count (table : Option Table) (session : Session) : Except SourceFault Nat :=
  session.auditor.graph.ask <|
    match table with
    | some table => .ok (session.database.count table)
    | none =>
      match session.database.index with
      | some index => .ok index.length
      | none => .error (.unavailable "no such table: example_fts")

/-- Tries to add a row through a pool: pools only read. -/
def write (session : Session) : Except SourceFault Unit :=
  session.auditor.graph.ask (.error (.unavailable "attempt to write a readonly database"))

end Session

end UsageAudit.Database
