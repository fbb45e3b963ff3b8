import UsageAudit.Auditor
import UsageAudit.Question

/-!
# Checks as trees of questions

A check asks about symbols one after the other, and what it asks next depends on what it has
learned. Written down as a tree of questions, every check is followed by the same induction, and one
that passes over a desk can be stopped between any two of its lookups. This file turns every check
against a graph into such a tree and shows that carrying the tree out is the check itself.
-/

namespace UsageAudit

/-- Looking up without a cache gives what the graph answers. -/
theorem directLookups_ask (graph : FixedGraph) (question : Question) :
    (directLookups graph).ask question = fetchDirect (graph.answer question) := by
  cases question <;> rfl

/-- Questions, each of which is chosen when the ones before it have been looked up, and what they
lead to. -/
inductive Inquiry (α : Type) where
  | done (value : α)
  | ask (question : Question) (next : Fetch question.Answer → Inquiry α)

namespace Inquiry

variable {α β : Type}

/-- One inquiry after the other. -/
def andThen : Inquiry α → (α → Inquiry β) → Inquiry β
  | .done value, rest => rest value
  | .ask question next, rest => .ask question fun fetch => (next fetch).andThen rest

instance : Monad Inquiry where
  pure := done
  bind := andThen

/-- Inquiries follow each other as the steps of a program do. -/
instance : LawfulMonad Inquiry := LawfulMonad.mk' Inquiry
  (by
    intro α inquiry
    show inquiry.andThen done = inquiry
    induction inquiry with
    | done value => rfl
    | ask question next ih => simp [andThen, ih])
  (by intro α β value rest; rfl)
  (by
    intro α β γ inquiry rest further
    show (inquiry.andThen rest).andThen further =
      inquiry.andThen fun value => (rest value).andThen further
    induction inquiry with
    | done value => rfl
    | ask question next ih => simp [andThen, ih])

/-- The way to look up that only asks. -/
def lookups : Lookups Inquiry where
  sighting kind qualifiers := .ask (.sighting kind qualifiers) .done
  methodSignature owner method := .ask (.methodSignature owner method) .done
  functionSignature path name := .ask (.functionSignature path name) .done

/-- Carries an inquiry out. -/
def run {m : Type → Type} [Monad m] (lookups : Lookups m) : Inquiry α → m α
  | .done value => pure value
  | .ask question next => do run lookups (next (← lookups.ask question))

section Run

variable {m : Type → Type} [Monad m] [LawfulMonad m] (source : Lookups m)

omit [LawfulMonad m] in
/-- What needs no question is there at once. -/
@[simp]
theorem run_pure (value : α) : (pure value : Inquiry α).run source = pure value := rfl

/-- A single question is looked up. -/
@[simp]
theorem run_sighting (kind : SymbolKind) (qualifiers : List String) :
    (lookups.sighting kind qualifiers).run source = source.sighting kind qualifiers := by
  simp [lookups, run, Lookups.ask]

/-- The signature of a method is looked up. -/
@[simp]
theorem run_methodSignature (owner method : String) :
    (lookups.methodSignature owner method).run source = source.methodSignature owner method := by
  simp [lookups, run, Lookups.ask]

/-- The signature of a function is looked up. -/
@[simp]
theorem run_functionSignature (path name : String) :
    (lookups.functionSignature path name).run source = source.functionSignature path name := by
  simp [lookups, run, Lookups.ask]

/-- Carrying out one inquiry after the other. -/
@[simp]
theorem run_bind (inquiry : Inquiry α) (rest : α → Inquiry β) :
    (inquiry >>= rest).run source =
      inquiry.run source >>= fun value => (rest value).run source := by
  induction inquiry with
  | done value => exact (pure_bind value fun value => (rest value).run source).symm
  | ask question next ih =>
    calc
      _ = source.ask question >>= fun fetch => (next fetch >>= rest).run source := rfl
      _ = source.ask question >>= fun fetch =>
          (next fetch).run source >>= fun value => (rest value).run source := by simp only [ih]
      _ = _ := (bind_assoc _ _ _).symm

/-- What an inquiry leads to may be changed before or after it is carried out. -/
@[simp]
theorem run_map (f : α → β) (inquiry : Inquiry α) :
    (f <$> inquiry).run source = f <$> inquiry.run source := by
  rw [map_eq_pure_bind, map_eq_pure_bind, run_bind]
  rfl

/-- Carrying out an inquiry for each member of a list. -/
theorem run_mapM {γ : Type} (inquiry : γ → Inquiry α) (members : List γ) :
    (members.mapM inquiry).run source = members.mapM fun member => (inquiry member).run source := by
  induction members with
  | nil => rfl
  | cons member rest ih => simp [List.mapM_cons, ih]

end Run

end Inquiry

namespace GraphCheck

variable {α : Type} [Scalar α] {m : Type → Type} [Monad m] [LawfulMonad m]
  (source : Lookups m) (settings : Settings α) (element : ElementRef)

/-- An import is checked by its questions. -/
theorem run_checkImport (path : String) :
    (checkImport Inquiry.lookups settings element path).run source =
      checkImport source settings element path := by
  simp [checkImport]

/-- The making of an object is checked by its questions. -/
theorem run_checkInstantiation (path : String) (arguments : Option CallArguments) :
    (checkInstantiation Inquiry.lookups settings element path arguments).run source =
      checkInstantiation source settings element path arguments := by
  simp only [checkInstantiation, Inquiry.run_bind, Inquiry.run_sighting]
  refine bind_congr fun fetch => ?_
  split <;> simp

/-- A call of a method is checked by its questions. -/
theorem run_checkMethodCall (owner method : String) (arguments : Option CallArguments) :
    (checkMethodCall Inquiry.lookups settings element owner method arguments).run source =
      checkMethodCall source settings element owner method arguments := by
  simp only [checkMethodCall, Inquiry.run_bind, Inquiry.run_sighting]
  refine bind_congr fun fetch => ?_
  split <;> simp

/-- A call of a function is checked by its questions. -/
theorem run_checkFunctionCall (path name : String) (arguments : Option CallArguments) :
    (checkFunctionCall Inquiry.lookups settings element path name arguments).run source =
      checkFunctionCall source settings element path name arguments := by
  simp only [checkFunctionCall, Inquiry.run_bind, Inquiry.run_sighting]
  refine bind_congr fun fetch => ?_
  split <;> simp

/-- The other meanings of a member are looked up by their questions. -/
theorem run_resolveFallbacks (fetch : Fetch Sighting) (cached : Bool)
    (meanings : List (SymbolKind × List String)) :
    (resolveFallbacks Inquiry.lookups fetch cached meanings).run source =
      resolveFallbacks source fetch cached meanings := by
  induction meanings generalizing fetch cached with
  | nil => rfl
  | cons meaning rest ih =>
    obtain ⟨kind, qualifiers⟩ := meaning
    simp only [resolveFallbacks]
    split <;> simp [ih]

/-- An access to a member is checked by its questions. -/
theorem run_checkAttribute (owner name : String) (ownerIsClass : Bool) :
    (checkAttribute Inquiry.lookups settings element owner name ownerIsClass).run source =
      checkAttribute source settings element owner name ownerIsClass := by
  simp [checkAttribute, run_resolveFallbacks]

/-- A target is checked by its questions. -/
theorem run_checkTarget (target : Target) :
    (checkTarget Inquiry.lookups settings target).run source =
      checkTarget source settings target := by
  unfold checkTarget
  cases target.name with
  | ofModule path => exact run_checkImport source settings _ path
  | ofClass path => exact run_checkInstantiation source settings _ path _
  | method owner name => exact run_checkMethodCall source settings _ owner name _
  | function path name => exact run_checkFunctionCall source settings _ path name _
  | member owner name ownerIsClass =>
    exact run_checkAttribute source settings _ owner name ownerIsClass

/-- A script is checked by the questions of its targets. -/
theorem run_checkScript (analysis : Analysis) :
    (checkScript Inquiry.lookups settings analysis).run source =
      checkScript source settings analysis := by
  simp [checkScript, checkPlan, Inquiry.run_mapM, run_checkTarget]

end GraphCheck

end UsageAudit
