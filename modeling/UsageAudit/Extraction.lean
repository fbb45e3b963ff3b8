import UsageAudit.Element
import UsageAudit.Script.Tree

/-!
# Elements of a syntax tree

One walk over the syntax tree collects the elements of a script in the order of their nodes. Names
and chains of members are kept as they are written; a literal only leaves the tag of its type, so no
value ever gets into an element.
-/

namespace UsageAudit.Extraction

open Script (Tree Kind Field)

/-- A tree that lacks a part that its kind must have. -/
inductive Fault where
  /-- A node lacks a part that is to be copied. -/
  | lacksField (kind : Kind) (line : Nat) (field : Field)
  /-- A call has no callee. -/
  | noCallee (line : Nat)
  /-- The callee of a call is a member of nothing. -/
  | noCalleeObject (line : Nat)
  /-- A member of nothing. -/
  | noObject (line : Nat)
  deriving DecidableEq, Repr

/-- The wording of a fault. -/
def Fault.message : Fault → String
  | .lacksField kind line field =>
    kind.name ++ " node at line " ++ toString line ++ " lacks field '" ++ field.label ++ "'"
  | .noCallee line => "call at line " ++ toString line ++ " has no callee"
  | .noCalleeObject line => "attribute callee at line " ++ toString line ++ " has no object"
  | .noObject line => "attribute at line " ++ toString line ++ " has no object"

/-- The text of a node as it stands in the script. -/
def textOf (tree : Tree) : String := String.ofList tree.text

/-- The text of a part that must be there. -/
def fieldText (tree : Tree) (field : Field) : Except Fault String :=
  match tree.child? field with
  | some child => .ok (textOf child)
  | none => .error (.lacksField tree.kind tree.line field)

/-- The tag of an expression that is neither a name nor built on one. -/
def tag (name : String) : String := "<" ++ name ++ ">"

/-- Whether the prefix of a text literal makes it bytes. -/
def isBytesPrefix (text : List Char) : Bool := text.any fun c => c == 'b' || c == 'B'

/-- Whether a number literal is imaginary. -/
def isImaginary (text : List Char) : Bool :=
  match text.getLast? with
  | some c => c == 'j' || c == 'J'
  | none => false

mutual

/-- The type of a literal expression, as far as it shows. -/
def literalKind : Tree → ArgKind
  | .token _ kind _ _ text => literalKindOf kind text [] .unknown .unknown
  | .branch _ kind _ children =>
    literalKindOf kind (Tree.texts children) (children.head?.map Tree.text |>.getD [])
      ((literalKindAt .argument children).getD .unknown)
      ((firstLiteralKind children).getD .tuple)

/-- The type of the first part in a role. -/
def literalKindAt (field : Field) : List Tree → Option ArgKind
  | [] => none
  | tree :: rest =>
    if tree.field == some field then some (literalKind tree) else literalKindAt field rest

/-- The type of the first part that is a construct. -/
def firstLiteralKind : List Tree → Option ArgKind
  | [] => none
  | tree :: rest => if tree.isNamed then some (literalKind tree) else firstLiteralKind rest

/-- The type of a literal of the given kind. `text` is its text, `start` that of its first part,
`argument` the type of what a sign stands in front of, and `inner` that of what parentheses hold. -/
def literalKindOf (kind : Kind) (text start : List Char) (argument inner : ArgKind) : ArgKind :=
  match kind with
  | .string => if isBytesPrefix start then .bytes else .str
  | .concatenatedString => .str
  | .integer => if isImaginary text then .complex else .int
  | .float => if isImaginary text then .complex else .float
  | .trueLiteral | .falseLiteral => .bool
  | .noneLiteral => .none
  | .list | .listComprehension => .list
  | .dictionary | .dictionaryComprehension => .dict
  | .tuple => .tuple
  | .set | .setComprehension => .set
  | .unaryOperator =>
    match argument with
    | .int => .int
    | .float => .float
    | .complex => .complex
    | _ => .unknown
  | .parenthesized => inner
  | _ => .unknown

end

/-- The tag of an expression without a name. -/
def tagOf (tree : Tree) : String :=
  match literalKind tree with
  | .unknown => tag tree.kind.name
  | kind => tag kind.name

mutual

/-- The rendering of an expression: names and chains of members as they are, calls and subscripts
without what they hold, and a tag for anything else. -/
def render : Tree → Except Fault String
  | .token field kind line blank text =>
    match kind with
    | .identifier | .dottedName => .ok (String.ofList text)
    | .member => .error (.lacksField .member line .memberName)
    | .call => .ok "<call>()"
    | .subscript => .ok "<subscript>"
    | .parenthesized | .awaitExpression => .ok "<expr>"
    | _ => .ok (tagOf (.token field kind line blank text))
  | .branch field kind line children =>
    let tree := Tree.branch field kind line children
    match kind with
    | .identifier | .dottedName => .ok (textOf tree)
    | .member => do
      let object ← (renderAt .object children).getD (.ok "<expr>")
      return object ++ "." ++ (← fieldText tree .memberName)
    | .call =>
      match renderAt .function children with
      | some callee => return (← callee) ++ "()"
      | none => .ok "<call>()"
    | .subscript =>
      match renderAt .value children with
      | some value => return (← value) ++ "[]"
      | none => .ok "<subscript>"
    | .parenthesized | .awaitExpression => (renderFirst children).getD (.ok "<expr>")
    | _ => .ok (tagOf tree)

/-- The rendering of the first part in a role. -/
def renderAt (field : Field) : List Tree → Option (Except Fault String)
  | [] => none
  | tree :: rest => if tree.field == some field then some (render tree) else renderAt field rest

/-- The rendering of the first part that is a construct. -/
def renderFirst : List Tree → Option (Except Fault String)
  | [] => none
  | tree :: rest => if tree.isNamed then some (render tree) else renderFirst rest

end

mutual

/-- The dotted name of a base class; none for anything but a name or a chain of members. -/
def baseName : Tree → Except Fault (Option String)
  | .token _ kind _ _ text =>
    .ok (if kind = .identifier then some (String.ofList text) else none)
  | .branch field kind line children =>
    let tree := Tree.branch field kind line children
    match kind with
    | .identifier => .ok (some (textOf tree))
    | .member =>
      match baseNameAt children with
      | none => .ok none
      | some object => do
        match ← object with
        | some start => return some (start ++ "." ++ (← fieldText tree .memberName))
        | none => return none
    | _ => .ok none

/-- The dotted name of the object of a member. -/
def baseNameAt : List Tree → Option (Except Fault (Option String))
  | [] => none
  | tree :: rest => if tree.field == some .object then some (baseName tree) else baseNameAt rest

end

mutual

/-- What is called on the right side of an assignment. Chained assignments, `await` and parentheses
are looked through. -/
def assignedCallee : Tree → Except Fault (Option String)
  | .token .. => .ok none
  | .branch _ kind _ children =>
    match kind with
    | .call =>
      match renderAt .function children with
      | some callee => callee.map some
      | none => .ok none
    | .assignment => (assignedCalleeAt children).getD (.ok none)
    | .awaitExpression | .parenthesized => (assignedCalleeFirst children).getD (.ok none)
    | _ => .ok none

/-- What is called on the right side of a chained assignment. -/
def assignedCalleeAt : List Tree → Option (Except Fault (Option String))
  | [] => none
  | tree :: rest =>
    if tree.field == some .right then some (assignedCallee tree) else assignedCalleeAt rest

/-- What is called by the first part that is a construct. -/
def assignedCalleeFirst : List Tree → Option (Except Fault (Option String))
  | [] => none
  | tree :: rest => if tree.isNamed then some (assignedCallee tree) else assignedCalleeFirst rest

end

/-- A scope that a definition opens. -/
structure Frame where
  isClass : Bool
  name : String
  deriving DecidableEq, Repr

/-- The scopes around a node, the innermost first. -/
abbrev Scope := List Frame

/-- The names of the scopes, the outermost first, with dots between them. -/
def Scope.path (scope : Scope) : String := ".".intercalate (scope.reverse.map Frame.name)

/-- The class of a function defined right here: a function inside a method is no method. -/
def Scope.methodOwner (scope : Scope) : Option String :=
  match scope with
  | ⟨true, _⟩ :: _ => some scope.path
  | _ => none

/-- The imports of an `import` statement, one for each name. -/
def importTarget (tree : Tree) : Except Fault (String × Option String) :=
  if tree.kind = .aliasedImport then do
    let name ← fieldText tree .name
    return (name, some (← fieldText tree .nickname))
  else .ok (textOf tree, none)

/-- The parts that play a role. -/
def partsAt (tree : Tree) (field : Field) : List Tree :=
  tree.children.filter fun child => child.field == some field

/-- The imports of a statement that imports modules. -/
def moduleImports (tree : Tree) : Except Fault (List Element) :=
  (partsAt tree .name).mapM fun part => do
    let (path, nickname) ← importTarget part
    return .ofImport ⟨path, none, nickname, tree.line⟩

/-- The imports of a statement that imports names from a module. -/
def nameImports (tree : Tree) : Except Fault (List Element) := do
  -- Only an import of features of the future names no module.
  let path := ((tree.child? .moduleName).map textOf).getD "__future__"
  let named ← (partsAt tree .name).mapM fun part => do
    let (name, nickname) ← importTarget part
    return Element.ofImport ⟨path, some name, nickname, tree.line⟩
  let all := tree.children.any fun child => child.kind == .wildcardImport
  return named ++ if all then [.ofImport ⟨path, some "*", none, tree.line⟩] else []

/-- The function that a statement of a class body defines, with or without decorators. -/
def definedFunction? (statement : Tree) : Option Tree :=
  let definition :=
    if statement.kind = .decoratedDefinition then statement.child? .definition
    else some statement
  definition.filter fun definition => definition.kind == .functionDefinition

/-- The definition of a class. -/
def classElement (tree : Tree) : Except Fault Element := do
  let name ← fieldText tree .name
  let bases ← ((tree.child? .superclasses).map Tree.namedChildren |>.getD []).mapM baseName
  let methods ← (((tree.child? .body).map Tree.namedChildren |>.getD []).filterMap
    definedFunction?).mapM fun definition => fieldText definition .name
  return .classDef ⟨name, bases.filterMap id, methods, tree.line⟩

/-- Whether a part of a parameter is a name, with or without stars. -/
def isParameterName (kind : Kind) : Bool :=
  kind == .identifier || kind == .listSplatPattern || kind == .dictionarySplatPattern

/-- The name of a parameter; none for separators and tuples. -/
def parameterName (tree : Tree) : Except Fault (Option String) :=
  if isParameterName tree.kind then .ok (some (textOf tree))
  else if tree.kind = .typedParameter then
    .ok ((tree.namedChildren.find? fun child => isParameterName child.kind).map textOf)
  else if tree.kind = .defaultParameter ∨ tree.kind = .typedDefaultParameter then
    (fieldText tree .name).map some
  else .ok none

/-- The definition of a function in the given scope. -/
def functionElement (scope : Scope) (tree : Tree) : Except Fault Element := do
  let name ← fieldText tree .name
  let args ← ((tree.child? .parameters).map Tree.namedChildren |>.getD []).mapM parameterName
  -- The word for asynchronous functions is a sign among the parts.
  let isAsync := tree.children.any fun child =>
    child.kind == .sign && child.text == ['a', 's', 'y', 'n', 'c']
  return .functionDef ⟨name, args.filterMap id, scope.methodOwner, isAsync, tree.line⟩

/-- What one argument adds to the shape of a call: the shape so far, and the numbers of unpacked
sequences and mappings. -/
structure ArgumentTally where
  shape : CallArguments
  sequences : Nat
  mappings : Nat

/-- Adds one argument to the shape of a call. -/
def ArgumentTally.add (tally : ArgumentTally) (argument : Tree) : Except Fault ArgumentTally :=
  match argument.kind with
  -- A comment stands among the arguments, but is none of them.
  | .comment => .ok tally
  | .keywordArgument => do
    let name ← fieldText argument .name
    let kind := (literalKindAt .value argument.children).getD .unknown
    return { tally with
      shape := { tally.shape with keywords := tally.shape.keywords ++ [⟨name, kind⟩] } }
  | .listSplat =>
    .ok { tally with
      shape := { tally.shape with hasUnpacking := true }, sequences := tally.sequences + 1 }
  | .dictionarySplat =>
    .ok { tally with
      shape := { tally.shape with hasUnpacking := true }, mappings := tally.mappings + 1 }
  | _ =>
    .ok { tally with
      shape := { tally.shape with
        positional := tally.shape.positional ++ [literalKind argument] } }

/-- The shape of the arguments of a call, and how many are given by position and by keyword. -/
def callArguments (arguments : Option Tree) : Except Fault (CallArguments × Nat × Nat) :=
  match arguments with
  | none => .ok (.empty, 0, 0)
  | some arguments =>
    -- A generator that is the only argument needs no parentheses but its own.
    if arguments.kind = .generator then .ok ({ CallArguments.empty with positional := [.unknown] }, 1, 0)
    else do
      let tally ← arguments.namedChildren.foldlM ArgumentTally.add ⟨.empty, 0, 0⟩
      return (tally.shape, tally.shape.positional.length + tally.sequences,
        tally.shape.keywords.length + tally.mappings)

/-- A call. -/
def callElement (tree : Tree) : Except Fault Element :=
  match tree.child? .function with
  | none => .error (.noCallee tree.line)
  | some callee => do
    let (arguments, argCount, keywordCount) ← callArguments (tree.child? .arguments)
    if callee.kind = .member then
      match callee.child? .object with
      | none => .error (.noCalleeObject tree.line)
      | some object =>
        let object ← render object
        let method ← fieldText callee .memberName
        return .methodCall ⟨object, method, argCount, keywordCount, arguments, tree.line⟩
    else
      return .functionCall ⟨← render callee, argCount, keywordCount, arguments, tree.line⟩

/-- An access to a member. -/
def attributeElement (tree : Tree) : Except Fault Element :=
  match tree.child? .object with
  | none => .error (.noObject tree.line)
  | some object => do
    let object ← render object
    return .attributeAccess ⟨object, ← fieldText tree .memberName, tree.line⟩

/-- The assignment of a value to a plain name, if the node is one. -/
def assignmentElements (tree : Tree) : Except Fault (List Element) :=
  match tree.child? .left, tree.child? .right with
  | some left, some right =>
    if left.kind = .identifier then do
      return [.variableAssign ⟨textOf left, ← assignedCallee right, tree.line⟩]
    else .ok []
  | _, _ => .ok []

/-- How the node above uses a node. -/
inductive Role where
  | plain
  /-- What a call calls. -/
  | callee
  deriving DecidableEq, Repr

/-- The elements that a node itself gives rise to. -/
def ownElements (scope : Scope) (role : Role) (tree : Tree) : Except Fault (List Element) :=
  match tree.kind with
  | .importStatement => moduleImports tree
  | .importFrom | .futureImport => nameImports tree
  | .classDefinition => (classElement tree).map fun e => [e]
  | .functionDefinition => (functionElement scope tree).map fun e => [e]
  | .call => (callElement tree).map fun e => [e]
  | .member => if role = .plain then (attributeElement tree).map fun e => [e] else .ok []
  | .assignment => assignmentElements tree
  | _ => .ok []

/-- The part of a node that is visited in a way of its own. -/
structure Inside where
  field : Field
  scope : Scope
  role : Role

/-- Which part of a node is visited in a way of its own: the body of a definition belongs to the scope
that it opens, and the callee of a call is no access to a member. -/
def inside? (scope : Scope) (tree : Tree) : Option Inside :=
  let name := ((tree.child? .name).map textOf).getD ""
  match tree.kind with
  | .classDefinition => some ⟨.body, ⟨true, name⟩ :: scope, .plain⟩
  | .functionDefinition => some ⟨.body, ⟨false, name⟩ :: scope, .plain⟩
  | .call => some ⟨.function, scope, .callee⟩
  | _ => none

/-- What a walk over a tree has found. -/
structure Findings where
  elements : List Element
  /-- The number of constructs that were visited. -/
  nodes : Nat
  deriving DecidableEq, Repr

mutual

/-- Visits a tree in the given scope. -/
def visit (scope : Scope) (role : Role) : Tree → Except Fault Findings
  | .token field kind line blank text => do
    let own ← ownElements scope role (.token field kind line blank text)
    return ⟨own, kind.isNamed.toNat⟩
  | .branch field kind line children => do
    let tree := Tree.branch field kind line children
    let own ← ownElements scope role tree
    let rest ← visitAll scope (inside? scope tree) children
    return ⟨own ++ rest.elements, kind.isNamed.toNat + rest.nodes⟩

/-- Visits the parts of a node one after the other. -/
def visitAll (scope : Scope) (inside : Option Inside) : List Tree → Except Fault Findings
  | [] => .ok ⟨[], 0⟩
  | tree :: rest =>
    match inside with
    | some part =>
      if tree.field = some part.field then do
        -- Behind the first part in the role the others are visited as usual.
        let first ← visit part.scope part.role tree
        let more ← visitAll scope none rest
        return ⟨first.elements ++ more.elements, first.nodes + more.nodes⟩
      else do
        let first ← visit scope .plain tree
        let more ← visitAll scope inside rest
        return ⟨first.elements ++ more.elements, first.nodes + more.nodes⟩
    | none => do
      let first ← visit scope .plain tree
      let more ← visitAll scope none rest
      return ⟨first.elements ++ more.elements, first.nodes + more.nodes⟩

end

/-- The elements of a script and the number of its constructs. -/
def extract (tree : Tree) : Except Fault Findings := visit [] .plain tree

end UsageAudit.Extraction
