import UsageAudit.Proofs.Inquiry
import Mathlib.Data.List.Forall2

/-!
# Where an answer comes from

Whether an answer was in the cache shows in one detail of a check and decides nothing else: from
answers of the same content a check draws the same verdict and asks the same further questions. Two
inquiries of this sort are matched, and matching is followed through every check.
-/

namespace UsageAudit

/-- What a lookup gave, wherever it came from. -/
def Fetch.content {α : Type} : Fetch α → Except String α
  | .cached answer | .fresh answer => .ok answer
  | .malformed reason => .error reason

variable {α β : Type}

/-- The check with the detail whether all answers were in the cache. -/
def Check.withOrigin (check : Check α) (cached : Bool) : Check α :=
  { check with verdict := check.verdict.withDetail "from_cache" (.bool cached) }

/-- Whether two checks are the same but for the detail whether all answers were in the cache. -/
def Check.SameButOrigin (check check' : Check α) : Prop :=
  ∃ rest : Check α, ∃ cached cached' : Bool,
    check = rest.withOrigin cached ∧ check' = rest.withOrigin cached'

/-- Whether two outcomes have the same checks in the same order, but for where answers came from. -/
def GraphOutcome.SameButOrigin (outcome outcome' : GraphOutcome α) : Prop :=
  List.Forall₂ Check.SameButOrigin outcome.checks outcome'.checks ∧
    outcome.skipped = outcome'.skipped

namespace Inquiry

/-- Whether two inquiries ask the same questions and come to related values as long as they get
answers of the same content. All their questions are of the admitted sort. -/
inductive Matched (admitted : Question → Prop) (related : α → β → Prop) :
    Inquiry α → Inquiry β → Prop where
  | done (value : α) (value' : β) (hvalue : related value value') :
      Matched admitted related (.done value) (.done value')
  | ask (question : Question) (next : Fetch question.Answer → Inquiry α)
      (next' : Fetch question.Answer → Inquiry β) (hquestion : admitted question)
      (hnext : ∀ fetch fetch', fetch.content = fetch'.content →
        Matched admitted related (next fetch) (next' fetch')) :
      Matched admitted related (.ask question next) (.ask question next')

namespace Matched

variable {admitted : Question → Prop} {γ δ : Type} {related : α → β → Prop} {further : γ → δ → Prop}

/-- Related values match as inquiries that ask nothing. -/
theorem pure {value : α} {value' : β} (h : related value value') :
    Matched admitted related (Pure.pure value) (Pure.pure value') :=
  .done value value' h

/-- Matched inquiries that go on in matched ways are matched. -/
theorem bind {inquiry : Inquiry α} {inquiry' : Inquiry β} {rest : α → Inquiry γ}
    {rest' : β → Inquiry δ} (hfirst : Matched admitted related inquiry inquiry')
    (hrest : ∀ value value', related value value' →
      Matched admitted further (rest value) (rest' value')) :
    Matched admitted further (inquiry >>= rest) (inquiry' >>= rest') := by
  induction hfirst with
  | done value value' hvalue => exact hrest value value' hvalue
  | ask question next next' hquestion _ ih =>
    exact .ask question _ _ hquestion fun fetch fetch' hcontent => ih fetch fetch' hcontent

/-- Matched inquiries for each member of a list are matched. -/
theorem mapM {inquiry : γ → Inquiry α} {inquiry' : γ → Inquiry β} {members : List γ}
    (h : ∀ member ∈ members, Matched admitted related (inquiry member) (inquiry' member)) :
    Matched admitted (List.Forall₂ related) (members.mapM inquiry) (members.mapM inquiry') := by
  induction members with
  | nil => exact pure .nil
  | cons member rest ih =>
    simp only [List.mapM_cons]
    apply bind (h member (by simp))
    intro value value' hvalue
    apply bind (ih fun other hother => h other (List.mem_cons_of_mem _ hother))
    intro values values' hvalues
    exact pure (.cons hvalue hvalues)

/-- A lookup of an admitted question matches itself. -/
theorem lookup {question : Question} (h : admitted question) :
    Matched admitted (fun fetch fetch' => fetch.content = fetch'.content)
      (lookups.ask question) (lookups.ask question) := by
  cases question <;> exact .ask _ _ _ h fun fetch fetch' hcontent => .done fetch fetch' hcontent

end Matched

end Inquiry

namespace GraphCheck

open Inquiry (Matched)

variable [Scalar α]

/-- The verdict on a name depends on the content of what was looked up. -/
theorem existence_eq_of_content (wording : Wording α) {fetch fetch' : Fetch Sighting}
    (h : fetch.content = fetch'.content) : existence wording fetch = existence wording fetch' := by
  cases fetch <;> cases fetch' <;> cases h <;> rfl

/-- The verdict on a call depends on the content of what was looked up. -/
theorem withSignature_eq_of_content (verdict : Verdict α) {fetch fetch' : Fetch (Option Signature)}
    (h : fetch.content = fetch'.content) (arguments : Option CallArguments) :
    withSignature verdict fetch arguments = withSignature verdict fetch' arguments := by
  cases arguments with
  | none => rfl
  | some arguments =>
    cases fetch <;> cases fetch' <;> cases h <;> first | rfl | cases ‹Option Signature› <;> rfl

/-- Whether a symbol is not known depends on the content of what was looked up. -/
theorem isMissing_eq_of_content {fetch fetch' : Fetch Sighting}
    (h : fetch.content = fetch'.content) : isMissing fetch = isMissing fetch' := by
  cases fetch <;> cases fetch' <;> cases h <;> rfl

omit [Scalar α] in
/-- Checks that come of the same verdict differ only in where the answers came from. -/
theorem sameButOrigin_checkOf (element : ElementRef) (kind : CheckKind) (target : String)
    (verdict : Verdict α) (cached cached' : Bool) (repositories : List String) :
    (checkOf element kind target verdict cached repositories).SameButOrigin
      (checkOf element kind target verdict cached' repositories) :=
  ⟨⟨element, kind, target, verdict, repositories⟩, cached, cached', rfl, rfl⟩

variable (settings : Settings α) (element : ElementRef) {admitted : Question → Prop}

/-- The check of an import does not heed where answers come from. -/
theorem matched_checkImport {path : String} (h : admitted (.sighting .ofModule [path])) :
    Matched admitted Check.SameButOrigin (checkImport Inquiry.lookups settings element path)
      (checkImport Inquiry.lookups settings element path) := by
  apply Matched.bind (Matched.lookup h)
  intro fetch fetch' hcontent
  rw [existence_eq_of_content _ hcontent]
  exact .pure (sameButOrigin_checkOf ..)

/-- What is left of the check of a call, once its name has been looked up, does not heed where
answers come from. -/
theorem matched_withSignature {lookup : Inquiry (Fetch (Option Signature))}
    (hlookup : Matched admitted (fun fetch fetch' => fetch.content = fetch'.content) lookup lookup)
    (kind : CheckKind) (target : String) (verdict missing : Verdict α)
    (arguments : Option CallArguments) (repositories : List String) (cached cached' : Bool) :
    let rest (cached : Bool) : Inquiry (Check α) := do
      if verdict.status = .valid then
        let signature ← lookup
        return checkOf element kind target (withSignature verdict signature arguments)
          (cached && signature.isCached) repositories
      else return checkOf element kind target missing cached repositories
    Matched admitted Check.SameButOrigin (rest cached) (rest cached') := by
  dsimp only
  split
  · apply Matched.bind hlookup
    intro signature signature' hcontent
    rw [withSignature_eq_of_content _ hcontent]
    exact .pure (sameButOrigin_checkOf ..)
  · exact .pure (sameButOrigin_checkOf ..)

/-- The check of the making of an object does not heed where answers come from. -/
theorem matched_checkInstantiation {path : String} (arguments : Option CallArguments)
    (hclass : admitted (.sighting .ofClass [path]))
    (hsignature : admitted (.methodSignature path "__init__")) :
    Matched admitted Check.SameButOrigin
      (checkInstantiation Inquiry.lookups settings element path arguments)
      (checkInstantiation Inquiry.lookups settings element path arguments) := by
  apply Matched.bind (Matched.lookup hclass)
  intro fetch fetch' hcontent
  simp only [existence_eq_of_content _ hcontent]
  exact matched_withSignature element (Matched.lookup hsignature) ..

/-- The check of a call of a method does not heed where answers come from. -/
theorem matched_checkMethodCall {owner method : String} (arguments : Option CallArguments)
    (hmethod : admitted (.sighting .method [owner, method]))
    (hsignature : admitted (.methodSignature owner method)) :
    Matched admitted Check.SameButOrigin
      (checkMethodCall Inquiry.lookups settings element owner method arguments)
      (checkMethodCall Inquiry.lookups settings element owner method arguments) := by
  apply Matched.bind (Matched.lookup hmethod)
  intro fetch fetch' hcontent
  simp only [existence_eq_of_content _ hcontent]
  exact matched_withSignature element (Matched.lookup hsignature) ..

/-- The check of a call of a function does not heed where answers come from. -/
theorem matched_checkFunctionCall {path name : String} (arguments : Option CallArguments)
    (hfunction : admitted (.sighting .function [path, name]))
    (hsignature : admitted (.functionSignature path name)) :
    Matched admitted Check.SameButOrigin
      (checkFunctionCall Inquiry.lookups settings element path name arguments)
      (checkFunctionCall Inquiry.lookups settings element path name arguments) := by
  apply Matched.bind (Matched.lookup hfunction)
  intro fetch fetch' hcontent
  simp only [existence_eq_of_content _ hcontent]
  exact matched_withSignature element (Matched.lookup hsignature) ..

/-- Which of its meanings a member has does not depend on where answers come from. -/
theorem matched_resolveFallbacks {meanings : List (SymbolKind × List String)}
    (h : ∀ meaning ∈ meanings, admitted (.sighting meaning.1 meaning.2))
    {fetch fetch' : Fetch Sighting} (hcontent : fetch.content = fetch'.content)
    (cached cached' : Bool) :
    Matched admitted (fun resolved resolved' => resolved.1.content = resolved'.1.content)
      (resolveFallbacks Inquiry.lookups fetch cached meanings)
      (resolveFallbacks Inquiry.lookups fetch' cached' meanings) := by
  induction meanings generalizing fetch fetch' cached cached' with
  | nil => exact .pure hcontent
  | cons meaning rest ih =>
    obtain ⟨kind, qualifiers⟩ := meaning
    simp only [resolveFallbacks, isMissing_eq_of_content hcontent]
    split
    · apply Matched.bind (Matched.lookup (h (kind, qualifiers) (by simp)))
      intro next next' hnext
      exact ih (fun other hother => h other (List.mem_cons_of_mem _ hother)) hnext _ _
    · exact .pure hcontent

/-- The check of an access to a member does not heed where answers come from. -/
theorem matched_checkAttribute {owner name : String} {ownerIsClass : Bool}
    (hmember : admitted (.sighting .member [owner, name]))
    (hmeanings : ∀ meaning ∈ fallbacks owner name ownerIsClass,
      admitted (.sighting meaning.1 meaning.2)) :
    Matched admitted Check.SameButOrigin
      (checkAttribute Inquiry.lookups settings element owner name ownerIsClass)
      (checkAttribute Inquiry.lookups settings element owner name ownerIsClass) := by
  apply Matched.bind (Matched.lookup hmember)
  intro first first' hfirst
  apply Matched.bind (matched_resolveFallbacks hmeanings hfirst _ _)
  intro resolved resolved' hresolved
  simp only [existence_eq_of_content _ hresolved]
  exact .pure (sameButOrigin_checkOf ..)

end GraphCheck

end UsageAudit
