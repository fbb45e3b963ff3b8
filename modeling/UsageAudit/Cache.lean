import UsageAudit.Ordered
import UsageAudit.Symbol

/-!
# The cache of answers

Answers of a knowledge graph are kept under the name that was asked for. The first answer stays until
it is dropped; that something is not known is an answer like any other. Every look into the cache is
counted as a hit or a miss.
-/

namespace UsageAudit

/-- What a cached answer is about. -/
inductive CacheKey where
  | symbol (kind : SymbolKind) (name : String)
  | methodSignature (owner method : String)
  | functionSignature (path name : String)
  deriving DecidableEq, Repr

/-- A cached answer. -/
inductive CacheEntry where
  | sighting (sighting : Sighting)
  | signature (signature : Option Signature)
  deriving DecidableEq, Repr

/-- Answers in the order in which they came, with counts of hits and misses. -/
structure Cache where
  entries : Ordered CacheKey CacheEntry
  hits : Nat
  misses : Nat
  deriving DecidableEq, Repr

namespace Cache

/-- The cache without answers. -/
def empty : Cache := ⟨[], 0, 0⟩

/-- The number of answers. -/
def size (cache : Cache) : Nat := cache.entries.length

/-- Looks an answer up, and counts whether there was one. -/
def get (cache : Cache) (key : CacheKey) : Option CacheEntry × Cache :=
  match cache.entries.get? key with
  | some entry => (some entry, { cache with hits := cache.hits + 1 })
  | none => (none, { cache with misses := cache.misses + 1 })

/-- Keeps an answer unless there is one already, and gives the one that is kept. -/
def insert (cache : Cache) (key : CacheKey) (entry : CacheEntry) : CacheEntry × Cache :=
  match cache.entries.get? key with
  | some kept => (kept, cache)
  | none => (entry, { cache with entries := cache.entries.put key entry })

/-- Looks up whether a symbol is known. -/
def getSighting (cache : Cache) (kind : SymbolKind) (name : String) : Option Sighting × Cache :=
  match cache.get (.symbol kind name) with
  | (some (.sighting sighting), cache) => (some sighting, cache)
  | (_, cache) => (none, cache)

/-- Keeps whether a symbol is known. A key that holds a signature counts as not known. -/
def insertSighting (cache : Cache) (kind : SymbolKind) (name : String) (sighting : Sighting) :
    Sighting × Cache :=
  match cache.insert (.symbol kind name) (.sighting sighting) with
  | (.sighting kept, cache) => (kept, cache)
  | (.signature _, cache) => (.missing, cache)

/-- Looks up a signature; the answer may be that there is none. -/
def getSignature (cache : Cache) (key : CacheKey) : Option (Option Signature) × Cache :=
  match cache.get key with
  | (some (.signature signature), cache) => (some signature, cache)
  | (_, cache) => (none, cache)

/-- Keeps a signature, or that there is none. A key that holds a sighting counts as having none. -/
def insertSignature (cache : Cache) (key : CacheKey) (signature : Option Signature) :
    Option Signature × Cache :=
  match cache.insert key (.signature signature) with
  | (.signature kept, cache) => (kept, cache)
  | (.sighting _, cache) => (none, cache)

/-- Drops one answer, and says whether it was there. -/
def invalidate (cache : Cache) (key : CacheKey) : Bool × Cache :=
  (cache.entries.has key, { cache with entries := cache.entries.erase key })

/-- Drops all answers and counts. -/
def clear (_ : Cache) : Cache := empty

end Cache

end UsageAudit
