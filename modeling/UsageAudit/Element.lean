/-!
# Structural elements

What an audit knows of a script: its imports and definitions, the calls and attribute accesses it
makes, and the variables it assigns. Of the arguments of a call only the shape is kept, never a
value.
-/

namespace UsageAudit

/-- The type of an argument as far as its text shows it: only literals have a known type. -/
inductive ArgKind where
  | str | bytes | int | float | complex | bool | none | list | dict | tuple | set | unknown
  deriving DecidableEq, Repr

namespace ArgKind

/-- The name of a kind. -/
def name : ArgKind → String
  | .str => "str"
  | .bytes => "bytes"
  | .int => "int"
  | .float => "float"
  | .complex => "complex"
  | .bool => "bool"
  | .none => "None"
  | .list => "list"
  | .dict => "dict"
  | .tuple => "tuple"
  | .set => "set"
  | .unknown => "unknown"

/-- All kinds. -/
def all : List ArgKind :=
  [.str, .bytes, .int, .float, .complex, .bool, .none, .list, .dict, .tuple, .set, .unknown]

/-- Whether the type of the argument is known. -/
def isKnown (kind : ArgKind) : Bool := kind != .unknown

/-- The kind of the given name. -/
def ofName? (text : String) : Option ArgKind := all.find? fun kind => kind.name == text

/-- Every kind is found by its name. -/
theorem ofName?_name (kind : ArgKind) : ofName? kind.name = some kind := by
  cases kind <;> rfl

end ArgKind

/-- An argument given by keyword. -/
structure KeywordArg where
  name : String
  kind : ArgKind
  deriving DecidableEq, Repr

/-- The shape of the arguments of a call. -/
structure CallArguments where
  positional : List ArgKind
  keywords : List KeywordArg
  /-- Whether a sequence or a mapping is unpacked, so that binding cannot be checked. -/
  hasUnpacking : Bool
  deriving DecidableEq, Repr

/-- The shape of a call without arguments. -/
def CallArguments.empty : CallArguments := ⟨[], [], false⟩

/-- An imported module or name. -/
structure Import where
  /-- The dotted path of the module; a relative import keeps its leading dots. -/
  path : String
  /-- The name that is taken from the module. -/
  name : Option String
  /-- The name that the script uses instead. -/
  nickname : Option String
  line : Nat
  deriving DecidableEq, Repr

/-- The text up to the first dot. -/
def firstSegment (path : String) : String := String.ofList (path.toList.takeWhile (· != '.'))

namespace Import

/-- The name that the import binds in the script. -/
def boundName (e : Import) : String :=
  match e.nickname, e.name with
  | some nickname, _ => nickname
  | none, some name => name
  | none, none => firstSegment e.path

/-- Whether the import is relative to the package of the script. -/
def isRelative (e : Import) : Bool := e.path.toList.head? == some '.'

end Import

/-- The definition of a class. -/
structure ClassDef where
  name : String
  bases : List String
  methods : List String
  line : Nat
  deriving DecidableEq, Repr

/-- The definition of a function or a method. -/
structure FunctionDef where
  name : String
  args : List String
  /-- The dotted path of the class of a method. -/
  className : Option String
  isAsync : Bool
  line : Nat
  deriving DecidableEq, Repr

/-- Whether the function is a method. -/
def FunctionDef.isMethod (e : FunctionDef) : Bool := e.className.isSome

/-- A call of a member of something. -/
structure MethodCall where
  object : String
  method : String
  argCount : Nat
  keywordCount : Nat
  arguments : CallArguments
  line : Nat
  deriving DecidableEq, Repr

/-- A call of anything else. -/
structure FunctionCall where
  name : String
  argCount : Nat
  keywordCount : Nat
  arguments : CallArguments
  line : Nat
  deriving DecidableEq, Repr

/-- An access to a member that is not called. -/
structure AttributeAccess where
  object : String
  member : String
  line : Nat
  deriving DecidableEq, Repr

/-- An assignment to a variable. -/
structure VariableAssign where
  name : String
  /-- What is called on the right side, if that is a call. -/
  assignedFrom : Option String
  line : Nat
  deriving DecidableEq, Repr

/-- One fact about a script. -/
inductive Element where
  | ofImport (e : Import)
  | classDef (e : ClassDef)
  | functionDef (e : FunctionDef)
  | methodCall (e : MethodCall)
  | functionCall (e : FunctionCall)
  | attributeAccess (e : AttributeAccess)
  | variableAssign (e : VariableAssign)
  deriving DecidableEq, Repr

/-- What an element is. -/
inductive ElementKind where
  | ofImport | classDef | functionDef | methodCall | functionCall | attributeAccess
  | variableAssign
  deriving DecidableEq, Repr

namespace ElementKind

/-- The name of a kind. -/
def name : ElementKind → String
  | .ofImport => "import"
  | .classDef => "class_def"
  | .functionDef => "function_def"
  | .methodCall => "method_call"
  | .functionCall => "function_call"
  | .attributeAccess => "attribute_access"
  | .variableAssign => "variable_assign"

/-- All kinds. -/
def all : List ElementKind :=
  [.ofImport, .classDef, .functionDef, .methodCall, .functionCall, .attributeAccess,
    .variableAssign]

/-- The kind of the given name. -/
def ofName? (text : String) : Option ElementKind := all.find? fun kind => kind.name == text

/-- Every kind is found by its name. -/
theorem ofName?_name (kind : ElementKind) : ofName? kind.name = some kind := by
  cases kind <;> rfl

end ElementKind

namespace Element

/-- What the element is. -/
def kind : Element → ElementKind
  | .ofImport _ => .ofImport
  | .classDef _ => .classDef
  | .functionDef _ => .functionDef
  | .methodCall _ => .methodCall
  | .functionCall _ => .functionCall
  | .attributeAccess _ => .attributeAccess
  | .variableAssign _ => .variableAssign

/-- The line of the element. -/
def line : Element → Nat
  | .ofImport e => e.line
  | .classDef e => e.line
  | .functionDef e => e.line
  | .methodCall e => e.line
  | .functionCall e => e.line
  | .attributeAccess e => e.line
  | .variableAssign e => e.line

/-- The name of the element in messages. -/
def displayName : Element → String
  | .ofImport e =>
    match e.name with
    | some name => e.path ++ "." ++ name
    | none => e.path
  | .classDef e => e.name
  | .functionDef e =>
    match e.className with
    | some className => className ++ "." ++ e.name
    | none => e.name
  | .methodCall e => e.object ++ "." ++ e.method
  | .functionCall e => e.name
  | .attributeAccess e => e.object ++ "." ++ e.member
  | .variableAssign e => e.name

/-- Whether the element uses something from outside: definitions and assignments describe the script
itself. -/
def isUsage (element : Element) : Bool :=
  match element with
  | .ofImport _ | .methodCall _ | .functionCall _ | .attributeAccess _ => true
  | .classDef _ | .functionDef _ | .variableAssign _ => false

end Element

/-- A reference to an element of a script. -/
structure ElementRef where
  /-- The position among the elements of the script. -/
  index : Nat
  kind : ElementKind
  name : String
  line : Nat
  deriving DecidableEq, Repr

/-- The reference to an element at the given position. -/
def Element.ref (index : Nat) (element : Element) : ElementRef :=
  ⟨index, element.kind, element.displayName, element.line⟩

/-- How many elements of each kind there are. -/
structure ElementCounts where
  imports : Nat
  classes : Nat
  functions : Nat
  methods : Nat
  methodCalls : Nat
  functionCalls : Nat
  attributeAccesses : Nat
  assignments : Nat
  deriving DecidableEq, Repr

/-- Counts the elements of each kind. -/
def ElementCounts.of (elements : List Element) : ElementCounts :=
  let count (test : Element → Bool) : Nat := elements.countP test
  { imports := count fun e => e.kind == .ofImport
    classes := count fun e => e.kind == .classDef
    functions := count fun
      | .functionDef e => !e.isMethod
      | _ => false
    methods := count fun
      | .functionDef e => e.isMethod
      | _ => false
    methodCalls := count fun e => e.kind == .methodCall
    functionCalls := count fun e => e.kind == .functionCall
    attributeAccesses := count fun e => e.kind == .attributeAccess
    assignments := count fun e => e.kind == .variableAssign }

end UsageAudit
