import UsageAudit.Scalar

/-!
# Overlap of identifiers

Two texts resemble each other as far as they share identifiers. An identifier is taken in lower case;
it has at least two letters, digits or underscores and starts with no digit. The words with which
queries are made say nothing, unless a query has no others.
-/

namespace UsageAudit.Overlap

/-- Whether the character may stand in an identifier. -/
def isWordChar (c : Char) : Bool := c.isAlphanum || c == '_'

/-- The runs of characters that may stand in identifiers. `run` is the one that is open, in reverse. -/
def runs (run : List Char) : List Char → List (List Char)
  | [] => [run.reverse]
  | c :: rest => if isWordChar c then runs (c :: run) rest else run.reverse :: runs [] rest

/-- The identifier in a run: what follows its leading digits, if that is long enough. -/
def identifier? (run : List Char) : Option String :=
  match run.dropWhile Char.isDigit with
  | [] | [_] => none
  | name => some (String.ofList (name.map Char.toLower))

/-- The identifiers of a text, each once. -/
def tokens (text : String) : List String := ((runs [] text.toList).filterMap identifier?).eraseDups

/-- The words with which queries are made. -/
def fillers : List String :=
  ["attribute", "call", "example", "function", "import", "method", "usage"]

/-- The identifiers of a query that say something, or all of them if none does. -/
def queryTokens (query : String) : List String :=
  let all := tokens query
  let telling := all.filter fun token => !fillers.contains token
  if telling.isEmpty then all else telling

/-- The share of the identifiers of a query that occur in a text. -/
def similarity {α : Type} [Scalar α] (query : List String) (text : String) : α :=
  if query.isEmpty then 0.0
  else
    let present := tokens text
    Scalar.ofCount (query.filter fun token => present.contains token).length /
      Scalar.ofCount query.length

end UsageAudit.Overlap
