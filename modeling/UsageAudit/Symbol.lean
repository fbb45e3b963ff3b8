import UsageAudit.Json

/-!
# Symbols and signatures

What a knowledge graph holds: symbols of several kinds, the repositories that define them, and the
declared parameters of those that can be called.
-/

namespace UsageAudit

/-- What a symbol is. -/
inductive SymbolKind where
  | ofModule | ofClass | method | function | member
  deriving DecidableEq, Repr

namespace SymbolKind

/-- The name of a kind of symbol. -/
def name : SymbolKind → String
  | .ofModule => "module"
  | .ofClass => "class"
  | .method => "method"
  | .function => "function"
  | .member => "attribute"

/-- All kinds of symbols. -/
def all : List SymbolKind := [.ofModule, .ofClass, .method, .function, .member]

/-- The kind of the given name. -/
def ofName? (text : String) : Option SymbolKind := all.find? fun kind => kind.name == text

/-- Every kind is found by its name. -/
theorem ofName?_name (kind : SymbolKind) : ofName? kind.name = some kind := by
  cases kind <;> rfl

/-- Reads the name of a kind. -/
def ofJson? : Json → Option SymbolKind := Datum.choice? ofName?

end SymbolKind

/-- Whether a symbol is known, and in which repositories. -/
structure Sighting where
  known : Bool
  locations : List String
  deriving DecidableEq, Repr

namespace Sighting

/-- The symbol is known in the given repositories. -/
def found (locations : List String) : Sighting := ⟨true, locations⟩

/-- The symbol is not known. -/
def missing : Sighting := ⟨false, []⟩

/-- The sighting as an object. -/
def toJson (sighting : Sighting) : Json :=
  .obj [("exists", .bool sighting.known), ("locations", .texts sighting.locations)]

/-- Reads a sighting. -/
def ofJson? (value : Json) : Option Sighting := do
  match ← value.fields? ["exists", "locations"] with
  | [known, locations] => return ⟨← known.bool?, ← locations.list? Datum.str?⟩
  | _ => none

end Sighting

/-- How arguments reach a parameter. -/
inductive ParamKind where
  | positional | keywordOnly | varPositional | varKeyword
  deriving DecidableEq, Repr

namespace ParamKind

/-- The name of a kind of parameter. -/
def name : ParamKind → String
  | .positional => "positional"
  | .keywordOnly => "keyword_only"
  | .varPositional => "var_positional"
  | .varKeyword => "var_keyword"

/-- All kinds of parameters. -/
def all : List ParamKind := [.positional, .keywordOnly, .varPositional, .varKeyword]

/-- The kind of the given name. -/
def ofName? (text : String) : Option ParamKind := all.find? fun kind => kind.name == text

/-- Every kind is found by its name. -/
theorem ofName?_name (kind : ParamKind) : ofName? kind.name = some kind := by
  cases kind <;> rfl

/-- Reads the name of a kind. -/
def ofJson? : Json → Option ParamKind := Datum.choice? ofName?

end ParamKind

/-- A declared parameter. -/
structure Param where
  name : String
  /-- The text of its declared type. -/
  declared : Option String
  hasDefault : Bool
  kind : ParamKind
  deriving DecidableEq, Repr

namespace Param

/-- Whether the parameter takes in the arguments left over. -/
def isVariadic (param : Param) : Bool :=
  param.kind == .varPositional || param.kind == .varKeyword

/-- The parameter as an object. -/
def toJson (param : Param) : Json :=
  .obj ([("name", .str param.name)] ++ Datum.optionalMember "type" .str param.declared ++
    [("has_default", .bool param.hasDefault), ("kind", .str param.kind.name)])

/-- Reads a parameter. -/
def ofJson? (value : Json) : Option Param := do
  match ← value.fields? ["name", "type", "has_default", "kind"] with
  | [name, declared, hasDefault, kind] =>
    return ⟨← name.str?, ← declared.option? Datum.str?, ← hasDefault.bool?,
      ← ParamKind.ofJson? kind⟩
  | _ => none

end Param

/-- The declared signature of something that can be called. -/
structure Signature where
  params : List Param
  returns : Option String
  deriving DecidableEq, Repr

namespace Signature

/-- The signature as an object. -/
def toJson (signature : Signature) : Json :=
  .obj ([("params", Datum.ofList Param.toJson signature.params)] ++
    Datum.optionalMember "return_type" .str signature.returns)

/-- Reads a signature. -/
def ofJson? (value : Json) : Option Signature := do
  match ← value.fields? ["params", "return_type"] with
  | [params, returns] => return ⟨← params.list? Param.ofJson?, ← returns.option? Datum.str?⟩
  | _ => none

end Signature

end UsageAudit
