import UsageAudit.Database.Column
import UsageAudit.Database.Pattern
import UsageAudit.Database.Pool
import UsageAudit.Database.Tables
import UsageAudit.Lookup
import UsageAudit.Text.Blank

/-!
# The knowledge graph of a database

A symbol is found by its kind and its dotted name. A module is known as well if anything below it is
indexed as a module; there letters are compared without case. The locations of a symbol are the
repositories that hold it, in alphabetical order.
-/

namespace UsageAudit.Database

/-- Whether a row is the symbol of the given kind and name. -/
def SymbolRow.isOf (row : SymbolRow) (kind : SymbolKind) (qualified : String) : Bool :=
  row.kind == .text kind.name && row.qualified == .text qualified

/-- Whether a row is a module of the given name or below it. -/
def SymbolRow.isModule (row : SymbolRow) (qualified : String) : Bool :=
  row.kind == .text SymbolKind.ofModule.name &&
    (row.qualified == .text qualified ||
      Pattern.admits (Pattern.visible (Pattern.below qualified.toList))
        (Pattern.visible row.qualified.chars))

/-- Whether a row answers the question for a symbol. -/
def SymbolRow.answers (row : SymbolRow) (kind : SymbolKind) (qualified : String) : Bool :=
  match kind with
  | .ofModule => row.isModule qualified
  | _ => row.isOf kind qualified

/-- The repositories that hold an answer, each once and in alphabetical order. -/
def locations (kind : SymbolKind) (qualified : String) (database : Database) :
    Except SourceFault (List String) := do
  let rows := (database.symbols.rows.map Prod.snd).filter fun row => row.answers kind qualified
  let names := rows.filterMap fun row => database.repositories.get? row.repository
  let names ← names.eraseDups.mapM (readText 0 "name")
  return names.mergeSort fun a b => !decide (b < a)

/-- Where a symbol is known. -/
def findSymbol (kind : SymbolKind) (qualifiers : List String) (database : Database) :
    Except SourceFault Sighting := do
  let names ← database.locations kind (qualifiedName qualifiers)
  return if names.isEmpty then .missing else .found names

/-- Reads a parameter of the symbol of the given name. -/
def readParameter (qualified : String) (row : ParameterRow) : Except SourceFault Param := do
  let name ← readText 0 "name" row.name
  let declared ← readOptional 1 "type" row.declared
  let default ← readOptional 2 "default_value" row.default
  let kind ← readText 3 "kind" row.kind
  match ParamKind.ofName? kind with
  | none =>
    .error (.malformed
      ("parameter '" ++ name ++ "' of " ++ qualified ++ " has unknown kind '" ++ kind ++ "'"))
  | some kind =>
    return ⟨name, declared.filter fun text => !text.toList.all Text.isBlank, default.isSome, kind⟩

/-- The parameters of a symbol by their positions. -/
def parametersOf (symbol : Int) (database : Database) : List ParameterRow :=
  ((database.parameters.rows.map Prod.snd).filter fun row => row.symbol == symbol).mergeSort
    fun a b => a.position.notAfter b.position

/-- The signature of the first symbol of a kind and a name. -/
def findSignature (kind : SymbolKind) (qualified : String) (database : Database) :
    Except SourceFault (Option Signature) := do
  match database.symbols.rows.find? fun entry => entry.2.isOf kind qualified with
  | none => return none
  | some (number, row) =>
    let returns ← readOptional 1 "return_type" row.returns
    let params ← (database.parametersOf number).mapM (readParameter qualified)
    return some ⟨params, returns⟩

/-- What a database knows, asked directly. -/
def knowledge (database : Database) : FixedGraph where
  findSymbol kind qualifiers := database.findSymbol kind qualifiers
  findMethodSignature owner method := database.findSignature .method (owner ++ "." ++ method)
  findFunctionSignature path name := database.findSignature .function (path ++ "." ++ name)

/-- The knowledge graph of a database, asked through a pool. -/
def graph (database : Database) : KnowledgeGraph Pool where
  findSymbol kind qualifiers pool :=
    ⟨pool.ask (database.knowledge.findSymbol kind qualifiers), pool, false⟩
  findMethodSignature owner method pool :=
    ⟨pool.ask (database.knowledge.findMethodSignature owner method), pool, false⟩
  findFunctionSignature path name pool :=
    ⟨pool.ask (database.knowledge.findFunctionSignature path name), pool, false⟩
  close := Pool.close

end UsageAudit.Database
