import UsageAudit.Binding
import UsageAudit.Lookup
import UsageAudit.Resolution

/-!
# Checks against a knowledge graph

A name is looked up as what it is used as. A call whose symbol is known is also compared with the
signature of the symbol. An access to a member may mean a module, a class or something to call, so
that these are looked up before the member counts as not found.
-/

namespace UsageAudit.GraphCheck

variable {α : Type} [Scalar α]

/-- What is said of a name that was looked up. -/
structure Wording (α : Type) where
  label : String
  name : String
  /-- The confidence in a name that is known. -/
  found : α
  /-- What is said of a name that is not known. -/
  missingStatus : Status
  missing : α

/-- The verdict on a name that was looked up, and the repositories in which it was found. -/
def existence (wording : Wording α) (fetch : Fetch Sighting) : Verdict α × List String :=
  let quoted := wording.label ++ " '" ++ wording.name ++ "'"
  match fetch with
  | .cached sighting | .fresh sighting =>
    if sighting.known then
      ((Verdict.plain .valid wording.found (quoted ++ " found in knowledge graph")).withDetail
        "repositories" (.texts sighting.locations), sighting.locations)
    else
      ((Verdict.plain wording.missingStatus wording.missing
        (quoted ++ " not found in knowledge graph")).withSuggestion
          ("Verify that '" ++ wording.name ++ "' exists in the library you are using"), [])
  | .malformed reason =>
    ((Verdict.plain .notFound 0.0
      ("Malformed knowledge graph response for " ++ quoted)).withDetail "error" (.str reason), [])

/-- The verdict on the arguments of a call as a detail. -/
def parameterDetail (verdict : Verdict α) : Datum α :=
  .obj [("status", .str verdict.status.name), ("confidence", .real verdict.confidence),
    ("message", .str verdict.message), ("details", .obj verdict.details)]

/-- The verdict on a call to a name that is known, from the verdict on the name and the one on the
arguments. -/
def withArguments (verdict arguments : Verdict α) : Verdict α :=
  let detail := parameterDetail arguments
  if arguments.status = .valid then verdict.withDetail "parameter_validation" detail
  else
    let weaker := Verdict.plain .uncertain
      (Scalar.least verdict.confidence arguments.confidence)
      (verdict.message ++ "; " ++ arguments.message)
    -- What was said of the name is kept along with what is said of the arguments.
    { weaker with
      details := verdict.details
      suggestions := verdict.suggestions ++ arguments.suggestions }.withDetail
        "parameter_validation" detail

/-- The verdict on a call to a name that is known, once its signature has been looked up. -/
def withSignature (verdict : Verdict α) (fetch : Fetch (Option Signature))
    (arguments : Option CallArguments) : Verdict α :=
  match arguments with
  | none => verdict
  | some arguments =>
    let skipped (reason : String) := verdict.withDetail "parameter_validation" (.str reason)
    if arguments.hasUnpacking then skipped "skipped: argument unpacking"
    else
      match fetch with
      | .cached (some signature) | .fresh (some signature) =>
        withArguments verdict
          (checkArguments signature.params arguments.positional arguments.keywords)
      | .cached none | .fresh none => skipped "skipped: no signature"
      | .malformed reason => skipped ("skipped: " ++ reason)

/-- A check with the detail whether all answers were in the cache. -/
def checkOf (element : ElementRef) (kind : CheckKind) (target : String) (verdict : Verdict α)
    (cached : Bool) (repositories : List String) : Check α :=
  ⟨element, kind, target, verdict.withDetail "from_cache" (.bool cached), repositories⟩

variable {m : Type → Type} [Monad m] (lookups : Lookups m) (settings : Settings α)

/-- Checks an import. -/
def checkImport (element : ElementRef) (path : String) : m (Check α) := do
  let fetch ← lookups.sighting .ofModule [path]
  let (verdict, repositories) :=
    existence ⟨"Module", path, settings.classFound, .notFound, settings.notFound⟩ fetch
  return checkOf element .ofImport path verdict fetch.isCached repositories

/-- Checks the making of an object. -/
def checkInstantiation (element : ElementRef) (path : String)
    (arguments : Option CallArguments) : m (Check α) := do
  let fetch ← lookups.sighting .ofClass [path]
  let (verdict, repositories) :=
    existence ⟨"Class", path, settings.classFound, .notFound, settings.notFound⟩ fetch
  if verdict.status = .valid then
    let signature ← lookups.methodSignature path "__init__"
    return checkOf element .instantiation path (withSignature verdict signature arguments)
      (fetch.isCached && signature.isCached) repositories
  else return checkOf element .instantiation path verdict fetch.isCached repositories

/-- Checks a call of a method of a class. -/
def checkMethodCall (element : ElementRef) (owner method : String)
    (arguments : Option CallArguments) : m (Check α) := do
  let target := owner ++ "." ++ method
  let fetch ← lookups.sighting .method [owner, method]
  let (verdict, repositories) :=
    existence ⟨"Method", target, settings.memberFound, .notFound, settings.notFound⟩ fetch
  if verdict.status = .valid then
    let signature ← lookups.methodSignature owner method
    return checkOf element .methodCall target (withSignature verdict signature arguments)
      (fetch.isCached && signature.isCached) repositories
  else
    let verdict :=
      verdict.withSuggestion ("Check that '" ++ method ++ "' is a method of " ++ owner)
    return checkOf element .methodCall target verdict fetch.isCached repositories

/-- Checks a call of a function of a module. -/
def checkFunctionCall (element : ElementRef) (path name : String)
    (arguments : Option CallArguments) : m (Check α) := do
  let target := path ++ "." ++ name
  let fetch ← lookups.sighting .function [path, name]
  let (verdict, repositories) :=
    existence ⟨"Function", target, settings.memberFound, .notFound, settings.notFound⟩ fetch
  if verdict.status = .valid then
    let signature ← lookups.functionSignature path name
    return checkOf element .functionCall target (withSignature verdict signature arguments)
      (fetch.isCached && signature.isCached) repositories
  else return checkOf element .functionCall target verdict fetch.isCached repositories

/-- What else an access to a member may mean, with the parts of its name. -/
def fallbacks (owner name : String) (ownerIsClass : Bool) : List (SymbolKind × List String) :=
  if ownerIsClass then [(.method, [owner, name])]
  else
    let target := owner ++ "." ++ name
    [(.ofModule, [target]), (.ofClass, [target]), (.function, [owner, name])]

/-- Whether the symbol is not known. -/
def isMissing : Fetch Sighting → Bool
  | .cached sighting | .fresh sighting => !sighting.known
  | .malformed _ => false

/-- Looks up what a name may mean until it is known. `cached` says whether all answers so far were in
the cache. -/
def resolveFallbacks (fetch : Fetch Sighting) (cached : Bool) :
    List (SymbolKind × List String) → m (Fetch Sighting × Bool)
  | [] => return (fetch, cached)
  | (kind, qualifiers) :: rest => do
    if isMissing fetch then
      let next ← lookups.sighting kind qualifiers
      resolveFallbacks next (cached && next.isCached) rest
    else return (fetch, cached)

/-- Checks an access to a member. -/
def checkAttribute (element : ElementRef) (owner name : String) (ownerIsClass : Bool) :
    m (Check α) := do
  let target := owner ++ "." ++ name
  let first ← lookups.sighting .member [owner, name]
  let (fetch, cached) ←
    resolveFallbacks lookups first first.isCached (fallbacks owner name ownerIsClass)
  let (verdict, repositories) :=
    existence
      ⟨"Attribute", target, settings.memberFound, .uncertain, settings.attributeNotFound⟩ fetch
  return checkOf element .attributeAccess target verdict cached repositories

/-- Checks one target. -/
def checkTarget (target : Target) : m (Check α) :=
  match target.name with
  | .ofModule path => checkImport lookups settings target.element path
  | .ofClass path => checkInstantiation lookups settings target.element path target.arguments
  | .method owner name =>
    checkMethodCall lookups settings target.element owner name target.arguments
  | .function path name =>
    checkFunctionCall lookups settings target.element path name target.arguments
  | .member owner name ownerIsClass =>
    checkAttribute lookups settings target.element owner name ownerIsClass

/-- Checks all targets of a plan one after the other. -/
def checkPlan (plan : Plan) : m (GraphOutcome α) := do
  return ⟨← plan.targets.mapM (checkTarget lookups settings), plan.skipped⟩

/-- Checks all usages of a script that can be looked up. -/
def checkScript (analysis : Analysis) : m (GraphOutcome α) :=
  checkPlan lookups settings analysis.plan

end UsageAudit.GraphCheck
