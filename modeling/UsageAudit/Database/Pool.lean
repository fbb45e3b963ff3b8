import UsageAudit.Problem

/-!
# Pools of connections

A database is asked through a pool of connections. A pool that is closed has none left, and nothing
is answered any more.
-/

namespace UsageAudit.Database

/-- A pool of connections to the database at a path. -/
structure Pool where
  path : String
  /-- How many connections there are. -/
  size : Nat
  deriving DecidableEq, Repr

namespace Pool

/-- The size of a pool when nothing else is asked for. -/
def usualSize : Nat := 4

/-- The greatest size of a pool. -/
def greatestSize : Nat := 16

/-- A pool with at least one connection. -/
def ofSize (path : String) (size : Nat) : Pool := ⟨path, min (max size 1) greatestSize⟩

/-- Whether no connection is left. -/
def isClosed (pool : Pool) : Bool := pool.size == 0

/-- Gives all connections back. -/
def close (pool : Pool) : Pool := { pool with size := 0 }

/-- An answer that takes a connection. -/
def ask {α : Type} (pool : Pool) (answer : Except SourceFault α) : Except SourceFault α :=
  if pool.isClosed then
    .error (.unavailable ("connection pool for " ++ pool.path ++ " is closed"))
  else answer

/-- A new pool is open. -/
theorem isClosed_ofSize (path : String) (size : Nat) : (ofSize path size).isClosed = false := by
  simp [ofSize, isClosed, greatestSize]

end Pool

end UsageAudit.Database
