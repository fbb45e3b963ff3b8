import UsageAudit.Element
import UsageAudit.Json

/-!
# Elements as JSON

An element is an object whose member `element` names its kind, with the fields of that kind beside
it. A field that may be missing is written as null.
-/

namespace UsageAudit

namespace ArgKind

/-- The name of the kind. -/
def toJson (kind : ArgKind) : Json := .str kind.name

/-- The kind of a name. -/
def ofJson? : Json → Option ArgKind := Datum.choice? ofName?

end ArgKind

namespace KeywordArg

/-- The argument as an object. -/
def toJson (argument : KeywordArg) : Json :=
  .obj [("name", .str argument.name), ("kind", argument.kind.toJson)]

/-- Reads an argument. -/
def ofJson? (value : Json) : Option KeywordArg := do
  match ← value.fields? ["name", "kind"] with
  | [name, kind] => return ⟨← name.str?, ← ArgKind.ofJson? kind⟩
  | _ => none

end KeywordArg

namespace CallArguments

/-- The shape as an object. -/
def toJson (arguments : CallArguments) : Json :=
  .obj [("positional", Datum.ofList ArgKind.toJson arguments.positional),
    ("keywords", Datum.ofList KeywordArg.toJson arguments.keywords),
    ("has_unpacking", .bool arguments.hasUnpacking)]

/-- Reads a shape. -/
def ofJson? (value : Json) : Option CallArguments := do
  match ← value.fields? ["positional", "keywords", "has_unpacking"] with
  | [positional, keywords, unpacking] =>
    return ⟨← positional.list? ArgKind.ofJson?, ← keywords.list? KeywordArg.ofJson?,
      ← unpacking.bool?⟩
  | _ => none

end CallArguments

namespace ElementKind

/-- The name of the kind. -/
def toJson (kind : ElementKind) : Json := .str kind.name

/-- The kind of a name. -/
def ofJson? : Json → Option ElementKind := Datum.choice? ofName?

end ElementKind

namespace Element

/-- The fields of each kind of element. -/
def fieldNames : ElementKind → List String
  | .ofImport => ["module", "name", "alias", "line"]
  | .classDef => ["name", "bases", "method_names", "line"]
  | .functionDef => ["name", "args", "class_name", "is_async", "line"]
  | .methodCall =>
    ["object_expr", "method_name", "arg_count", "kwarg_count", "arguments", "line"]
  | .functionCall => ["name", "arg_count", "kwarg_count", "arguments", "line"]
  | .attributeAccess => ["object_expr", "attr_name", "line"]
  | .variableAssign => ["name", "assigned_from", "line"]

/-- The values of the fields of an element, in the order of their names. -/
def fieldValues : Element → List Json
  | .ofImport e =>
    [.str e.path, Datum.ofOption .str e.name, Datum.ofOption .str e.nickname, Datum.count e.line]
  | .classDef e =>
    [.str e.name, Datum.ofList .str e.bases, Datum.ofList .str e.methods, Datum.count e.line]
  | .functionDef e =>
    [.str e.name, Datum.ofList .str e.args, Datum.ofOption .str e.className, .bool e.isAsync,
      Datum.count e.line]
  | .methodCall e =>
    [.str e.object, .str e.method, Datum.count e.argCount, Datum.count e.keywordCount,
      e.arguments.toJson, Datum.count e.line]
  | .functionCall e =>
    [.str e.name, Datum.count e.argCount, Datum.count e.keywordCount, e.arguments.toJson,
      Datum.count e.line]
  | .attributeAccess e => [.str e.object, .str e.member, Datum.count e.line]
  | .variableAssign e => [.str e.name, Datum.ofOption .str e.assignedFrom, Datum.count e.line]

/-- The element as an object. -/
def toJson (element : Element) : Json :=
  .obj (("element", element.kind.toJson) ::
    (fieldNames element.kind).zip element.fieldValues)

/-- Reads the fields of an element of the given kind. -/
def ofFields? (kind : ElementKind) (values : List Json) : Option Element :=
  match kind, values with
  | .ofImport, [path, name, nickname, line] => do
    return .ofImport
      ⟨← path.str?, ← name.option? Datum.str?, ← nickname.option? Datum.str?, ← line.nat?⟩
  | .classDef, [name, bases, methods, line] => do
    return .classDef
      ⟨← name.str?, ← bases.list? Datum.str?, ← methods.list? Datum.str?, ← line.nat?⟩
  | .functionDef, [name, args, className, isAsync, line] => do
    return .functionDef
      ⟨← name.str?, ← args.list? Datum.str?, ← className.option? Datum.str?, ← isAsync.bool?,
        ← line.nat?⟩
  | .methodCall, [object, method, argCount, keywordCount, arguments, line] => do
    return .methodCall
      ⟨← object.str?, ← method.str?, ← argCount.nat?, ← keywordCount.nat?,
        ← CallArguments.ofJson? arguments, ← line.nat?⟩
  | .functionCall, [name, argCount, keywordCount, arguments, line] => do
    return .functionCall
      ⟨← name.str?, ← argCount.nat?, ← keywordCount.nat?, ← CallArguments.ofJson? arguments,
        ← line.nat?⟩
  | .attributeAccess, [object, member, line] => do
    return .attributeAccess ⟨← object.str?, ← member.str?, ← line.nat?⟩
  | .variableAssign, [name, assignedFrom, line] => do
    return .variableAssign ⟨← name.str?, ← assignedFrom.option? Datum.str?, ← line.nat?⟩
  | _, _ => none

/-- Reads an element: an object with its kind among its members, or an array that starts with it. -/
def ofJson? (value : Json) : Option Element := do
  match value with
  | .obj members =>
    let kind ← ElementKind.ofName? (← (Datum.memberOrNull members "element").str?)
    ofFields? kind (← value.fields? (fieldNames kind))
  | .arr (first :: rest) =>
    let kind ← ElementKind.ofName? (← first.str?)
    ofFields? kind (← (Datum.arr rest).fields? (fieldNames kind))
  | _ => none

end Element

namespace ElementRef

/-- The reference as an object. -/
def toJson (ref : ElementRef) : Json :=
  .obj [("index", Datum.count ref.index), ("kind", ref.kind.toJson), ("name", .str ref.name),
    ("line", Datum.count ref.line)]

/-- Reads a reference. -/
def ofJson? (value : Json) : Option ElementRef := do
  match ← value.fields? ["index", "kind", "name", "line"] with
  | [index, kind, name, line] =>
    return ⟨← index.nat?, ← ElementKind.ofJson? kind, ← name.str?, ← line.nat?⟩
  | _ => none

end ElementRef

/-- The counts as an object. -/
def ElementCounts.toJson (counts : ElementCounts) : Json :=
  .obj [("imports", Datum.count counts.imports), ("classes", Datum.count counts.classes),
    ("functions", Datum.count counts.functions), ("methods", Datum.count counts.methods),
    ("method_calls", Datum.count counts.methodCalls),
    ("function_calls", Datum.count counts.functionCalls),
    ("attribute_accesses", Datum.count counts.attributeAccesses),
    ("variables", Datum.count counts.assignments)]

end UsageAudit
