import UsageAudit.Analysis
import UsageAudit.Dotted
import UsageAudit.Ordered
import UsageAudit.Verdict

/-!
# Resolution of names

The elements of a script are walked in order while the names in effect are kept: those that imports
bind to a dotted path, and variables whose class is known from what was called to make them. A usage
whose name leads back to an import of a library is scheduled to be looked up under its qualified name.
Modules of the standard library and relative modules are taken as known.
-/

namespace UsageAudit

/-- The modules of the standard library, by the first segment of their path. -/
def standardModules : List String := [
  "__future__", "abc", "argparse", "array", "ast", "asyncio", "base64", "bisect", "builtins",
  "calendar", "cmath", "codecs", "collections", "concurrent", "configparser", "contextlib",
  "contextvars", "copy", "csv", "ctypes", "dataclasses", "datetime", "decimal", "difflib", "dis",
  "doctest", "email", "enum", "errno", "fnmatch", "fractions", "functools", "gc", "getpass",
  "glob", "gzip", "hashlib", "heapq", "hmac", "html", "http", "importlib", "inspect", "io",
  "ipaddress", "itertools", "json", "locale", "logging", "lzma", "math", "mimetypes",
  "multiprocessing", "numbers", "operator", "os", "pathlib", "pickle", "pkgutil", "platform",
  "pprint", "queue", "random", "re", "secrets", "select", "selectors", "shlex", "shutil",
  "signal", "socket", "sqlite3", "ssl", "statistics", "string", "struct", "subprocess", "sys",
  "tarfile", "tempfile", "textwrap", "threading", "time", "timeit", "tokenize", "traceback",
  "types", "typing", "unittest", "urllib", "uuid", "warnings", "weakref", "xml", "zipfile",
  "zlib", "zoneinfo"]

/-- Whether the module belongs to the standard library. -/
def isStandardModule (path : String) : Bool := standardModules.contains (firstSegment path)

/-- Whether the import is one of a library that a graph may know. -/
def Import.isCheckable (e : Import) : Bool := !e.isRelative && !isStandardModule e.path

/-- The qualified name under which an element is looked up. -/
inductive TargetName where
  | ofModule (path : String)
  | ofClass (path : String)
  | method (owner name : String)
  | function (owner name : String)
  | member (owner name : String) (ownerIsClass : Bool)
  deriving DecidableEq, Repr

namespace TargetName

/-- The qualified name as one text. -/
def qualified : TargetName → String
  | .ofModule path => path
  | .ofClass path => path
  | .method owner name | .function owner name | .member owner name _ => owner ++ "." ++ name

end TargetName

/-- An element that is to be looked up. -/
structure Target where
  element : ElementRef
  /-- What it is checked as. -/
  kind : CheckKind
  name : TargetName
  arguments : Option CallArguments
  deriving DecidableEq, Repr

/-- The elements of a script that are to be looked up. -/
structure Plan where
  targets : List Target
  /-- The number of usages whose name leads to nothing that can be looked up. -/
  skipped : Nat
  deriving DecidableEq, Repr

/-- What a name leads to. -/
inductive Referent where
  | ofModule (path : String)
  | ofClass (path : String)
  deriving DecidableEq, Repr

/-- The names in effect at a place in a script. -/
structure Names where
  /-- The paths of imported modules and members. -/
  imports : Ordered String String
  /-- The classes of variables. -/
  objects : Ordered String String
  deriving Repr

namespace Names

/-- The names in effect before the first element. -/
def empty : Names := ⟨[], []⟩

/-- The path that an import binds its name to, unless it imports all names. -/
def importedPath (e : Import) : Option String :=
  match e.name, e.nickname with
  | some name, _ => if name = "*" then none else some (e.path ++ "." ++ name)
  | none, some _ => some e.path
  | none, none => some e.boundName

/-- The names in effect after an import. -/
def addImport (names : Names) (e : Import) : Names :=
  { imports :=
      match importedPath e with
      | some path => names.imports.put e.boundName path
      -- Which names an import of all names binds is not known.
      | none => names.imports
    objects := names.objects.erase e.boundName }

/-- The names in effect after a definition in the script itself. -/
def define (names : Names) (name : String) : Names :=
  ⟨names.imports.erase name, names.objects.erase name⟩

/-- What an expression refers to. The members of a variable lead nowhere; the last segment of a path
tells a class from a module by its first letter. -/
def resolve (names : Names) (expression : String) : Option Referent :=
  match Dotted.segments expression.toList with
  | [] => none
  | root :: rest =>
    if !Dotted.isIdentifier root || !rest.all Dotted.isIdentifier then none
    else
      match names.objects.get? (String.ofList root) with
      | some path => if rest.isEmpty then some (.ofClass path) else none
      | none =>
        (names.imports.get? (String.ofList root)).map fun start =>
          let path := start ++ String.ofList (rest.flatMap fun segment => '.' :: segment)
          if Dotted.startsUpper (Dotted.lastSegment path.toList) then .ofClass path
          else .ofModule path

/-- The names in effect after an assignment. The name loses its import before what was called is
looked up. -/
def assign (names : Names) (name : String) (callee : Option String) : Names :=
  let names : Names := { names with imports := names.imports.erase name }
  match callee.bind names.resolve with
  | some (.ofClass path) => { names with objects := names.objects.put name path }
  | _ => { names with objects := names.objects.erase name }

end Names

namespace Plan

/-- What a call of the given method of something refers to. A method whose name starts with an
upper-case letter is a class. -/
def methodTarget (referent : Referent) (method : String) : TargetName :=
  if Dotted.startsUpper method.toList then
    match referent with
    | .ofClass path | .ofModule path => .ofClass (path ++ "." ++ method)
  else
    match referent with
    | .ofClass path => .method path method
    | .ofModule path => .function path method

/-- What a call of something refers to, if it can be called. -/
def callTarget? : Referent → Option TargetName
  | .ofClass path => some (.ofClass path)
  | .ofModule path =>
    (Dotted.splitLast? path.toList).map fun (owner, name) =>
      .function (String.ofList owner) (String.ofList name)

/-- What a call of the given method of something is checked as. -/
def methodKind (referent : Referent) (method : String) : CheckKind :=
  if Dotted.startsUpper method.toList then .instantiation
  else
    match referent with
    | .ofClass _ => .methodCall
    | .ofModule _ => .functionCall

/-- What a call of something is checked as. -/
def callKind : Referent → CheckKind
  | .ofClass _ => .instantiation
  | .ofModule _ => .functionCall

/-- What an access to a member of something refers to. -/
def memberTarget (referent : Referent) (name : String) : TargetName :=
  match referent with
  | .ofClass path => .member path name true
  | .ofModule path => .member path name false

/-- The name under which a usage is looked up, what it is checked as, and the arguments that are
checked with it. -/
def target? (names : Names) : Element → Option (TargetName × CheckKind × Option CallArguments)
  | .ofImport e => if e.isCheckable then some (.ofModule e.path, .ofImport, none) else none
  | .functionCall e =>
    (names.resolve e.name).bind fun referent =>
      (callTarget? referent).map fun name => (name, callKind referent, some e.arguments)
  | .methodCall e =>
    (names.resolve e.object).map fun referent =>
      (methodTarget referent e.method, methodKind referent e.method, some e.arguments)
  | .attributeAccess e =>
    (names.resolve e.object).map fun referent =>
      (memberTarget referent e.member, .attributeAccess, none)
  | .classDef _ | .functionDef _ | .variableAssign _ => none

/-- The names in effect after an element. -/
def namesAfter (names : Names) : Element → Names
  | .ofImport e => if e.isCheckable then names.addImport e else names
  | .classDef e => names.define e.name
  | .functionDef e => if e.isMethod then names else names.define e.name
  | .variableAssign e => names.assign e.name e.assignedFrom
  | .methodCall _ | .functionCall _ | .attributeAccess _ => names

/-- Plans the elements from the given position on. -/
def planFrom (names : Names) (index : Nat) : List Element → Plan
  | [] => ⟨[], 0⟩
  | element :: rest =>
    let plan := planFrom (namesAfter names element) (index + 1) rest
    match target? names element with
    | some (name, kind, arguments) =>
      { plan with targets := ⟨element.ref index, kind, name, arguments⟩ :: plan.targets }
    | none => if element.isUsage then { plan with skipped := plan.skipped + 1 } else plan

/-- Plans the elements of a script. -/
def ofElements (elements : List Element) : Plan := planFrom .empty 0 elements

end Plan

/-- The elements of a script that are to be looked up, under their qualified names. -/
def Analysis.plan (analysis : Analysis) : Plan := .ofElements analysis.elements

end UsageAudit
