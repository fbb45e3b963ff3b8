import UsageAudit.Proofs.Operation
import Mathlib.Data.List.Forall2

/-!
# What the check of a target says

Whatever is answered to its questions, the check of a target is about the element, under the kind
and the qualified name of the target, and one detail says whether all answers came from the cache.
There is one lemma for each kind of check; from them it follows what the checks of a script say, one
after the other.
-/

namespace UsageAudit

variable {α β γ σ : Type}

namespace Inquiry

/-- Whether something holds of all that an inquiry can come to, told whether all answers were in the
cache. `recalled` says so of the answers that were given before. -/
inductive Yields (holds : Bool → α → Prop) : Bool → Inquiry α → Prop where
  | done (recalled : Bool) (value : α) (h : holds recalled value) :
      Yields holds recalled (.done value)
  | ask (recalled : Bool) (question : Question) (next : Fetch question.Answer → Inquiry α)
      (h : ∀ fetch, Yields holds (recalled && fetch.isCached) (next fetch)) :
      Yields holds recalled (.ask question next)

namespace Yields

variable {holds further : Bool → α → Prop} {recalled : Bool} {inquiry : Inquiry α}

/-- A value is yielded without a question. -/
theorem pure {value : α} (h : holds recalled value) :
    Yields holds recalled (Pure.pure value) :=
  .done recalled value h

/-- What follows from all that an inquiry can come to holds of it, too. -/
theorem mono (h : Yields holds recalled inquiry)
    (himp : ∀ recalled value, holds recalled value → further recalled value) :
    Yields further recalled inquiry := by
  induction h with
  | done recalled value h => exact .done recalled value (himp recalled value h)
  | ask recalled question next _ ih => exact .ask recalled question next ih

/-- An inquiry goes on from what it has come to. -/
theorem bind {inquiry : Inquiry β} {rest : β → Inquiry α}
    (h : Yields (fun recalled value => Yields holds recalled (rest value)) recalled inquiry) :
    Yields holds recalled (inquiry >>= rest) := by
  induction h with
  | done recalled value h => exact h
  | ask recalled question next _ ih => exact .ask recalled question _ ih

/-- A lookup gives an answer, and nothing else is told of the cache. -/
theorem lookup (recalled : Bool) (question : Question) :
    Yields (fun all fetch => all = (recalled && fetch.isCached)) recalled
      (lookups.ask question) := by
  cases question <;> exact .ask recalled _ _ fun fetch => .done _ fetch rfl

/-- If all answers were in the cache, so were those that were given before. -/
theorem sofar (h : Yields holds recalled inquiry) {before : Bool}
    (hbefore : recalled = true → before = true) :
    Yields (fun recalled value => (recalled = true → before = true) ∧ holds recalled value)
      recalled inquiry := by
  induction h with
  | done recalled value h => exact .done recalled value ⟨hbefore, h⟩
  | ask recalled question next _ ih =>
    refine .ask recalled question next fun fetch => ih fetch ?_
    simp only [Bool.and_eq_true]
    exact fun hboth => hbefore hboth.1

/-- An inquiry that is not the first one is told of its own answers what it is told at first: if all
answers before it and its own were in the cache, then its own were. -/
theorem among (h : Yields holds recalled inquiry) {start : Bool}
    (hstart : start = true → recalled = true) :
    Yields (fun all value => ∃ own, (all = true → own = true) ∧ holds own value) start
      inquiry := by
  induction h generalizing start with
  | done recalled value h => exact .done start value ⟨recalled, hstart, h⟩
  | ask recalled question next _ ih =>
    refine .ask start question next fun fetch => ih fetch ?_
    simp only [Bool.and_eq_true]
    exact fun hboth => ⟨hstart hboth.1, hboth.2⟩

/-- What each inquiry of a row can come to tells what the row can come to. -/
theorem mapM {holds : γ → Bool → α → Prop} {inquiry : γ → Inquiry α} {members : List γ}
    (h : ∀ member ∈ members, Yields (holds member) true (inquiry member)) (recalled : Bool) :
    Yields (fun all values => List.Forall₂ (fun member value =>
        ∃ own, (all = true → own = true) ∧ holds member own value) members values)
      recalled (members.mapM inquiry) := by
  induction members generalizing recalled with
  | nil => exact .pure .nil
  | cons member rest ih =>
    have hfirst := (h member (by simp)).among (fun _ => rfl : recalled = true → true = true)
    have hrest (recalled : Bool) :=
      ih (fun other hother => h other (List.mem_cons_of_mem _ hother)) recalled
    simp only [List.mapM_cons]
    refine bind (hfirst.mono ?_)
    rintro recalled value ⟨own, hown, hvalue⟩
    refine bind (((hrest recalled).sofar fun hall => hall).mono ?_)
    rintro all values ⟨hall, hvalues⟩
    exact .pure (.cons ⟨own, fun h => hown (hall h), hvalue⟩ hvalues)

/-- What holds of every value holds of all that an inquiry can come to. -/
theorem of_forall (h : ∀ recalled value, holds recalled value) (recalled : Bool)
    (inquiry : Inquiry α) : Yields holds recalled inquiry := by
  induction inquiry generalizing recalled with
  | done value => exact .done recalled value (h recalled value)
  | ask question next ih => exact .ask recalled question next fun fetch => ih fetch _

/-- What a run comes to is one of the things that the inquiry can come to. -/
theorem of_start_run (h : Yields holds recalled inquiry) {graph : KnowledgeGraph σ}
    {desk after : Desk (Cached σ)} {value : α}
    (hrun : (inquiry.run (cachedLookups graph)).start desk = (.ok value, after)) :
    ∃ recalled, holds recalled value := by
  induction h generalizing desk with
  | done recalled value h =>
    cases hrun
    exact ⟨recalled, h⟩
  | ask recalled question next _ ih =>
    rw [start_run_ask] at hrun
    rcases hlooked : ((cachedLookups graph).ask question).start desk with ⟨problem | fetch, between⟩
    · simp [hlooked] at hrun
    · rw [hlooked] at hrun
      exact ih fetch hrun

end Yields

end Inquiry

/-- What is checked under a name of this form. -/
def TargetName.kind : TargetName → CheckKind
  | .ofModule _ => .ofImport
  | .ofClass _ => .instantiation
  | .method .. => .methodCall
  | .function .. => .functionCall
  | .member .. => .attributeAccess

/-- What the check of an element under a name says. `recalled` says whether all answers were in the
cache. -/
structure Check.IsOf (check : Check α) (element : ElementRef) (name : TargetName)
    (recalled : Bool) : Prop where
  element : check.element = element
  kind : check.kind = name.kind
  target : check.target = name.qualified
  origin : check.verdict.details.get? "from_cache" = some (.bool recalled)

namespace GraphCheck

open Inquiry (Yields)

/-- The check that is made of a verdict says what it is about and where the answers came from. -/
theorem isOf_checkOf (element : ElementRef) (name : TargetName) (verdict : Verdict α)
    (recalled : Bool) (repositories : List String) :
    (checkOf element name.kind name.qualified verdict recalled repositories).IsOf element name
      recalled :=
  ⟨rfl, rfl, rfl, Ordered.get?_put_self _ _ _⟩

variable [Scalar α] (settings : Settings α) (element : ElementRef)

/-- What the check of an import says. -/
theorem yields_checkImport (path : String) :
    Yields (fun all check => check.IsOf element (.ofModule path) all) true
      (checkImport Inquiry.lookups settings element path) := by
  refine .bind ((Yields.lookup true (.sighting .ofModule [path])).mono ?_)
  rintro _ fetch rfl
  exact .pure (isOf_checkOf element (.ofModule path) ..)

/-- What the rest of the check of a call says, once its name has been looked up. -/
theorem yields_withSignature {lookup : Inquiry (Fetch (Option Signature))}
    (hlookup : ∀ recalled,
      Yields (fun all fetch => all = (recalled && fetch.isCached)) recalled lookup)
    (name : TargetName) (verdict missing : Verdict α) (arguments : Option CallArguments)
    (repositories : List String) (recalled : Bool) :
    Yields (fun all check => check.IsOf element name all) recalled (do
      if verdict.status = .valid then
        let signature ← lookup
        return checkOf element name.kind name.qualified (withSignature verdict signature arguments)
          (recalled && signature.isCached) repositories
      else
        return checkOf element name.kind name.qualified missing recalled repositories) := by
  split
  · refine .bind ((hlookup recalled).mono ?_)
    rintro _ signature rfl
    exact .pure (isOf_checkOf element name ..)
  · exact .pure (isOf_checkOf element name ..)

/-- What the check of the making of an object says. -/
theorem yields_checkInstantiation (path : String) (arguments : Option CallArguments) :
    Yields (fun all check => check.IsOf element (.ofClass path) all) true
      (checkInstantiation Inquiry.lookups settings element path arguments) := by
  refine .bind ((Yields.lookup true (.sighting .ofClass [path])).mono ?_)
  rintro _ fetch rfl
  exact yields_withSignature element (Yields.lookup · (.methodSignature path "__init__"))
    (.ofClass path) ..

/-- What the check of a call of a method says. -/
theorem yields_checkMethodCall (owner method : String) (arguments : Option CallArguments) :
    Yields (fun all check => check.IsOf element (.method owner method) all) true
      (checkMethodCall Inquiry.lookups settings element owner method arguments) := by
  refine .bind ((Yields.lookup true (.sighting .method [owner, method])).mono ?_)
  rintro _ fetch rfl
  exact yields_withSignature element (Yields.lookup · (.methodSignature owner method))
    (.method owner method) ..

/-- What the check of a call of a function says. -/
theorem yields_checkFunctionCall (path name : String) (arguments : Option CallArguments) :
    Yields (fun all check => check.IsOf element (.function path name) all) true
      (checkFunctionCall Inquiry.lookups settings element path name arguments) := by
  refine .bind ((Yields.lookup true (.sighting .function [path, name])).mono ?_)
  rintro _ fetch rfl
  exact yields_withSignature element (Yields.lookup · (.functionSignature path name))
    (.function path name) ..

/-- Looking for a further meaning keeps count of where the answers came from. -/
theorem yields_resolveFallbacks (fetch : Fetch Sighting) (recalled : Bool)
    (meanings : List (SymbolKind × List String)) :
    Yields (fun all resolved => all = resolved.2) recalled
      (resolveFallbacks Inquiry.lookups fetch recalled meanings) := by
  induction meanings generalizing fetch recalled with
  | nil => exact .pure rfl
  | cons meaning rest ih =>
    obtain ⟨kind, qualifiers⟩ := meaning
    simp only [resolveFallbacks]
    split
    · refine .bind ((Yields.lookup recalled (.sighting kind qualifiers)).mono ?_)
      rintro _ next rfl
      exact ih next _
    · exact .pure rfl

/-- What the check of an access to a member says. -/
theorem yields_checkAttribute (owner name : String) (ownerIsClass : Bool) :
    Yields (fun all check => check.IsOf element (.member owner name ownerIsClass) all) true
      (checkAttribute Inquiry.lookups settings element owner name ownerIsClass) := by
  refine .bind ((Yields.lookup true (.sighting .member [owner, name])).mono ?_)
  rintro _ first rfl
  refine .bind ((yields_resolveFallbacks first _ _).mono ?_)
  rintro _ resolved rfl
  exact .pure (isOf_checkOf element (.member owner name ownerIsClass) ..)

/-- What the check of a target says. -/
theorem yields_checkTarget (target : Target) :
    Yields (fun all check => check.IsOf target.element target.name all) true
      (checkTarget Inquiry.lookups settings target) := by
  obtain ⟨element, kind, name, arguments⟩ := target
  cases name with
  | ofModule path => exact yields_checkImport settings element path
  | ofClass path => exact yields_checkInstantiation settings element path arguments
  | method owner name => exact yields_checkMethodCall settings element owner name arguments
  | function path name => exact yields_checkFunctionCall settings element path name arguments
  | member owner name ownerIsClass =>
    exact yields_checkAttribute settings element owner name ownerIsClass

/-- What the checks of a script say: one after the other they are those of the targets of its plan.
If all answers were in the cache, each of the checks says so. -/
theorem yields_checkScript (analysis : Analysis) :
    Yields (fun all outcome =>
        List.Forall₂ (fun target check =>
            ∃ own, (all = true → own = true) ∧ check.IsOf target.element target.name own)
          analysis.plan.targets outcome.checks ∧
        outcome.skipped = analysis.plan.skipped)
      true (checkScript Inquiry.lookups settings analysis) := by
  have htargets := Yields.mapM (fun target (_ : target ∈ analysis.plan.targets) =>
    yields_checkTarget settings target) true
  refine .bind (htargets.mono ?_)
  intro all checks hchecks
  exact .pure ⟨hchecks, rfl⟩

end GraphCheck

end UsageAudit
