import UsageAudit.Element.Codec
import UsageAudit.Extraction
import UsageAudit.Digest
import UsageAudit.Script.Mend

/-!
# Analysis of scripts

The structural model of a script: what is known of the script as a whole, and its elements in the
order in which they were found.
-/

namespace UsageAudit

/-- What is known of a script as a whole. -/
structure Metadata where
  path : String
  totalLines : Nat
  nodeCount : Nat
  contentHash : String
  /-- The fault that kept the script from being analysed, if one did. -/
  error : Option String
  deriving DecidableEq, Repr

/-- The structural model of a script. -/
structure Analysis where
  metadata : Metadata
  elements : List Element
  deriving DecidableEq, Repr

/-- Where and why a text is no script. -/
structure ParseError where
  line : Nat
  column : Nat
  message : String
  deriving DecidableEq, Repr

/-- The number of lines of a text. A line feed at the end starts no further line. -/
def lineCount (text : List Char) : Nat :=
  Script.Tree.lineFeeds text + if text.isEmpty || text.getLast? == some '\n' then 0 else 1

namespace Analysis

/-- The elements with their references. -/
def refs (analysis : Analysis) : List (ElementRef × Element) :=
  analysis.elements.zipIdx.map fun (element, index) => (element.ref index, element)

/-- How many elements of each kind there are. -/
def counts (analysis : Analysis) : ElementCounts := .of analysis.elements

/-- The analysis of a syntax tree. A fault leaves no elements. -/
def ofTree (metadata : Metadata) (tree : Script.Tree) : Analysis :=
  match Extraction.extract tree with
  | .ok findings => ⟨{ metadata with nodeCount := findings.nodes }, findings.elements⟩
  | .error fault => ⟨{ metadata with error := some fault.message }, []⟩

/-- The fault of a text that is no script, by line and column. Columns count bytes. -/
def parseError (text : List Char) (stuck : Script.StuckAt) : ParseError :=
  let (front, message) := Script.Mend.fault text stuck
  let line := front.reverse.takeWhile fun c => c != '\n'
  ⟨Script.Tree.lineFeeds front + 1, Script.Mend.byteCount line + 1, message⟩

/-- The analysis of a script that was read from the given path. -/
def ofScript (script path : String) : Except ParseError Analysis :=
  match Script.parse script.toList with
  | .ok tree =>
    .ok (ofTree ⟨path, lineCount script.toList, 0, Digest.sha256 script, none⟩ tree)
  | .error stuck => .error (parseError script.toList stuck)

end Analysis

namespace Metadata

/-- The metadata as an object. -/
def toJson (metadata : Metadata) : Json :=
  .obj ([("script_path", .str metadata.path), ("total_lines", Datum.count metadata.totalLines),
    ("node_count", Datum.count metadata.nodeCount), ("content_hash", .str metadata.contentHash)] ++
    Datum.optionalMember "error" .str metadata.error)

/-- Reads metadata. -/
def ofJson? (value : Json) : Option Metadata := do
  match ← value.fields? ["script_path", "total_lines", "node_count", "content_hash", "error"] with
  | [path, lines, nodes, hash, error] =>
    return ⟨← path.str?, ← lines.nat?, ← nodes.nat?, ← hash.str?, ← error.option? Datum.str?⟩
  | _ => none

end Metadata

namespace Analysis

/-- The model as an object. -/
def toJson (analysis : Analysis) : Json :=
  .obj [("metadata", analysis.metadata.toJson),
    ("elements", Datum.ofList Element.toJson analysis.elements)]

/-- Reads a model. -/
def ofJson? (value : Json) : Option Analysis := do
  match ← value.fields? ["metadata", "elements"] with
  | [metadata, elements] =>
    return ⟨← Metadata.ofJson? metadata, ← elements.list? Element.ofJson?⟩
  | _ => none

end Analysis

end UsageAudit
