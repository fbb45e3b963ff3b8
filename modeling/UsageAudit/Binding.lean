import UsageAudit.Symbol
import UsageAudit.TypeHint
import UsageAudit.Verdict

/-!
# Binding arguments to parameters

The arguments of a call are bound to the declared parameters as a call would bind them. A binding that
fails, or that leaves a required parameter without an argument, is reported; otherwise the kinds of the
arguments that are literals are compared with the declared types.
-/

namespace UsageAudit

/-- How the arguments of a call meet the parameters. -/
structure Binding where
  /-- The parameters that have an argument, with its kind. -/
  bound : Ordered String (ArgKind × Param)
  /-- The number of arguments by position for which there is no parameter. -/
  excess : Nat
  /-- The names that are given by keyword after they were bound. -/
  duplicates : List String
  /-- The names that are given by keyword and are no parameters. -/
  unexpected : List String

namespace Binding

/-- The parameters that a call gives arguments for: the object of a method is not among them. -/
def expected : List Param → List Param
  | [] => []
  | first :: rest => if first.name = "self" ∨ first.name = "cls" then rest else first :: rest

/-- The parameters that take arguments by position. -/
def slots (params : List Param) : List Param := params.filter fun param => param.kind == .positional

/-- Whether any number of arguments is taken by position. -/
def takesPositional (params : List Param) : Bool :=
  params.any fun param => param.kind == .varPositional

/-- Whether any keyword is taken. -/
def takesKeywords (params : List Param) : Bool := params.any fun param => param.kind == .varKeyword

/-- The parameter that a keyword names. -/
def named? (params : List Param) (name : String) : Option Param :=
  params.find? fun param =>
    param.name == name && (param.kind == .positional || param.kind == .keywordOnly)

/-- Binds an argument to a parameter. -/
def bind (binding : Binding) (param : Param) (kind : ArgKind) : Binding :=
  { binding with bound := binding.bound.put param.name (kind, param) }

/-- Binds arguments by position to the slots that are left. -/
def positionals (takesMore : Bool) : Binding → List Param → List ArgKind → Binding
  | binding, _, [] => binding
  | binding, slot :: slots, kind :: kinds => positionals takesMore (binding.bind slot kind) slots kinds
  | binding, [], kinds =>
    if takesMore then binding else { binding with excess := binding.excess + kinds.length }

/-- Binds an argument given by keyword. -/
def keyword (params : List Param) (binding : Binding) (argument : KeywordArg) : Binding :=
  match named? params argument.name with
  | some param =>
    if binding.bound.has param.name then
      -- The argument that was bound first stays.
      { binding with duplicates := binding.duplicates ++ [argument.name] }
    else binding.bind param argument.kind
  | none =>
    if takesKeywords params then binding
    else { binding with unexpected := binding.unexpected ++ [argument.name] }

/-- Binds the arguments of a call. -/
def ofCall (params : List Param) (positional : List ArgKind) (keywords : List KeywordArg) : Binding :=
  keywords.foldl (keyword params)
    (positionals (takesPositional params) ⟨[], 0, [], []⟩ (slots params) positional)

/-- The parameters that need an argument and have none. -/
def missing (binding : Binding) (params : List Param) : List Param :=
  params.filter fun param =>
    !param.isVariadic && !param.hasDefault && !binding.bound.has param.name

/-- The comparison of an argument with the declared type of its parameter. -/
structure TypeCheck where
  param : String
  declared : String
  received : ArgKind
  accepted : Bool

/-- The comparisons that can be made. -/
def typeChecks (binding : Binding) : List TypeCheck :=
  binding.bound.filterMap fun (name, kind, param) =>
    param.declared.bind fun declared =>
      (TypeHint.accepts declared kind param.hasDefault).map fun accepted =>
        ⟨name, declared, kind, accepted⟩

/-- A mismatch as an object. -/
def TypeCheck.toDatum {α : Type} (check : TypeCheck) : Datum α :=
  .obj [("parameter", .str check.param), ("expected", .str check.declared),
    ("received", .str check.received.name)]

variable {α : Type} [Scalar α]

/-- The confidence in a call whose arguments cannot be bound. -/
def conflictConfidence : α := 0.3

/-- The confidence in a call that leaves out an argument. -/
def missingConfidence : α := 0.5

/-- The confidence in a call with arguments of wrong types, less a share of the penalty. -/
def mismatchConfidence : α := 0.6

/-- What is taken off when all arguments that were compared have wrong types. -/
def mismatchPenalty : α := 0.2

/-- The confidence in a call whose arguments can be bound. -/
def validConfidence : α := 0.8

/-- What is added when all arguments were compared. -/
def checkedBonus : α := 0.1

/-- Names with commas between them. -/
def listed (names : List String) : String := ", ".intercalate names

/-- The verdict on parameters that are given twice. -/
def duplicateVerdict (names : List String) : Verdict α :=
  (Verdict.plain .uncertain conflictConfidence
    ("Multiple values for argument(s): " ++ listed names)).withDetail
      "duplicate_arguments" (.texts names)

/-- The verdict on arguments for which there is no parameter. -/
def surplusVerdict (params : List Param) (given excess : Nat) (unexpected : List String) :
    Verdict α :=
  let tooMany := toString given ++ " positional argument(s) given, at most " ++
    toString (slots params).length ++ " accepted"
  let unknown := "Unexpected keyword(s): " ++ listed unexpected
  let message := "; ".intercalate
    ((if excess = 0 then [] else [tooMany]) ++ if unexpected.isEmpty then [] else [unknown])
  let verdict := ((Verdict.plain .uncertain conflictConfidence message).withDetail
    "excess_positional" (.count excess)).withDetail "unexpected_keywords" (.texts unexpected)
  if params.isEmpty then verdict
  else verdict.withSuggestion ("Accepted parameters: " ++ listed (params.map Param.name))

/-- The verdict on arguments that are left out. -/
def missingVerdict (names : List String) : Verdict α :=
  ((Verdict.plain .uncertain missingConfidence
    ("Missing required argument(s): " ++ listed names)).withSuggestion
      ("Provide: " ++ listed names)).withDetail "missing_arguments" (.texts names)

/-- The verdict on arguments that can be bound, from the comparisons with the declared types. -/
def typeVerdict (bound : Nat) (checks : List TypeCheck) : Verdict α :=
  let wrong := checks.filter fun check => !check.accepted
  if wrong.isEmpty then
    let share : α :=
      if bound = 0 then 0.0 else Scalar.ofCount checks.length / Scalar.ofCount bound
    ((Verdict.plain .valid (validConfidence + checkedBonus * share)
      "Arguments match the declared parameters").withDetail
        "checked_arguments" (.count checks.length)).withDetail "bound_arguments" (.count bound)
  else
    -- One of the comparisons failed, so that there are some to divide by.
    let share : α := Scalar.ofCount wrong.length / Scalar.ofCount checks.length
    (Verdict.plain .uncertain (mismatchConfidence - mismatchPenalty * share)
      (toString wrong.length ++ " of " ++ toString checks.length ++
        " checked argument(s) have the wrong type")).withDetail
          "type_mismatches" (.arr (wrong.map TypeCheck.toDatum))

end Binding

/-- The verdict on the arguments of a call to something with the declared parameters. -/
def checkArguments {α : Type} [Scalar α] (declared : List Param) (positional : List ArgKind)
    (keywords : List KeywordArg) : Verdict α :=
  let params := Binding.expected declared
  let binding := Binding.ofCall params positional keywords
  if !binding.duplicates.isEmpty then Binding.duplicateVerdict binding.duplicates
  else if binding.excess ≠ 0 ∨ !binding.unexpected.isEmpty then
    Binding.surplusVerdict params positional.length binding.excess binding.unexpected
  else
    let missing := binding.missing params
    if !missing.isEmpty then Binding.missingVerdict (missing.map Param.name)
    else Binding.typeVerdict binding.bound.length binding.typeChecks

end UsageAudit
