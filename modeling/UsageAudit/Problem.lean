import UsageAudit.Analysis

/-!
# Problems

What can keep an audit from its result. Each cause is a constructor; its wording and its name stand in
one place.
-/

namespace UsageAudit

/-- What a source of knowledge answers instead of an answer. -/
inductive SourceFault where
  /-- The source cannot be reached or refuses. -/
  | unavailable (reason : String)
  /-- The source gives something of the wrong form. -/
  | malformed (reason : String)
  deriving DecidableEq, Repr

namespace SourceFault

/-- The name of a fault. -/
def name : SourceFault → String
  | .unavailable _ => "unavailable"
  | .malformed _ => "malformed"

/-- The wording of a fault. -/
def message : SourceFault → String
  | .unavailable reason => "collaborator unavailable: " ++ reason
  | .malformed reason => "malformed collaborator response: " ++ reason

end SourceFault

/-- What can be wrong with a file or with the folders that lead to it. -/
inductive FileFault where
  | missing | insideFile | folder | notText
  /-- A folder cannot be made where a file is. -/
  | taken
  deriving DecidableEq, Repr

/-- The wording of a fault of a file. -/
def FileFault.message : FileFault → String
  | .missing => "No such file or directory (os error 2)"
  | .insideFile => "Not a directory (os error 20)"
  | .folder => "Is a directory (os error 21)"
  | .notText => "stream did not contain valid UTF-8"
  | .taken => "File exists (os error 17)"

/-- What keeps an audit from its result. -/
inductive Problem where
  | unparsable (error : ParseError)
  | unavailable (reason : String)
  | degraded (reason : String)
  | malformed (reason : String)
  | cancelled
  | unreadable (fault : FileFault)
  | storage (reason : String)
  deriving DecidableEq, Repr

namespace Problem

/-- The name of a problem. -/
def name : Problem → String
  | .unparsable _ => "parse_error"
  | .unavailable _ => "collaborator_unavailable"
  | .degraded _ => "collaborator_degraded"
  | .malformed _ => "malformed_response"
  | .cancelled => "cancelled"
  | .unreadable _ => "io_error"
  | .storage _ => "storage_error"

/-- The wording of a problem. -/
def message : Problem → String
  | .unparsable error =>
    "Parse error at line " ++ toString error.line ++ ", column " ++ toString error.column ++ ": " ++
      error.message
  | .unavailable reason => "Graph store unavailable: " ++ reason
  | .degraded reason => "Vector search degraded: " ++ reason
  | .malformed reason => "Malformed response: " ++ reason
  | .cancelled => "Request cancelled"
  | .unreadable fault => "IO error: " ++ fault.message
  | .storage reason => "SQLite error: " ++ reason

end Problem

end UsageAudit
