import UsageAudit.Cache

/-!
# Cached answers as JSON

The keys and entries of the cache as objects, and the reader of keys.
-/

namespace UsageAudit

namespace CacheKey

/-- Reads a key: an object whose only member says what the answer is about. -/
def ofJson? (value : Json) : Option CacheKey := do
  match value.field "symbol", value.field "method", value.field "function" with
  | .arr [kind, name], _, _ => return .symbol (← SymbolKind.ofJson? kind) (← name.str?)
  | .null, .arr [owner, method], _ => return .methodSignature (← owner.str?) (← method.str?)
  | .null, .null, .arr [path, name] => return .functionSignature (← path.str?) (← name.str?)
  | _, _, _ => none

end CacheKey

namespace CacheEntry

/-- A signature, or that there is none, as an object. -/
def signatureJson (signature : Option Signature) : Json :=
  .obj [("signature", Datum.ofOption Signature.toJson signature)]

/-- The entry as an object. -/
def toJson : CacheEntry → Json
  | .sighting found => .obj [("symbol", found.toJson)]
  | .signature found => signatureJson found

end CacheEntry

/-- The counts of the cache as an object. -/
def Cache.statsJson (cache : Cache) : Json :=
  .obj [("entries", .count cache.size), ("hits", .count cache.hits), ("misses", .count cache.misses)]

end UsageAudit
