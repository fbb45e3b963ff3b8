import UsageAudit.Proofs.Operation

/-!
# What a check learns

A check looks up symbols, and maybe a signature, and draws its verdict from what it has learned.
This file ties what an inquiry comes to to the row of what is learned on the way, and says how a
verdict is drawn from the lookups of a symbol and of a signature.
-/

namespace UsageAudit

variable {α β σ : Type}

/-- A question with what its lookup gave. -/
abbrev Learned := (question : Question) × Fetch question.Answer

namespace Learned

/-- What the lookup of a symbol gave. -/
def symbol? : Learned → Option (Fetch Sighting)
  | ⟨.sighting .., fetch⟩ => some fetch
  | ⟨.methodSignature .., _⟩ | ⟨.functionSignature .., _⟩ => none

/-- What the lookup of a signature gave. -/
def signature? : Learned → Option (Fetch (Option Signature))
  | ⟨.sighting .., _⟩ => none
  | ⟨.methodSignature .., fetch⟩ | ⟨.functionSignature .., fetch⟩ => some fetch

/-- What the lookups of symbols gave. -/
def symbols (learned : List Learned) : List (Fetch Sighting) := learned.filterMap symbol?

/-- What the lookups of signatures gave. -/
def signatures (learned : List Learned) : List (Fetch (Option Signature)) :=
  learned.filterMap signature?

/-- A symbol that was looked up is among the symbols. -/
theorem symbols_sighting (kind : SymbolKind) (qualifiers : List String) (fetch : Fetch Sighting)
    (rest : List Learned) :
    symbols (⟨.sighting kind qualifiers, fetch⟩ :: rest) = fetch :: symbols rest := rfl

/-- A symbol that was looked up is not among the signatures. -/
theorem signatures_sighting (kind : SymbolKind) (qualifiers : List String) (fetch : Fetch Sighting)
    (rest : List Learned) :
    signatures (⟨.sighting kind qualifiers, fetch⟩ :: rest) = signatures rest := rfl

end Learned

/-- What a lookup gave, unless it met with a problem. -/
def LookupRecord.learned? : LookupRecord σ → Option Learned
  | ⟨question, _, .ok fetch, _⟩ => some ⟨question, fetch⟩
  | ⟨_, _, .error _, _⟩ => none

namespace Inquiry

/-- What is learned when an inquiry is carried out. -/
def learned (graph : KnowledgeGraph σ) (inquiry : Inquiry α) (desk : Desk (Cached σ)) :
    List Learned :=
  (inquiry.trace graph desk).filterMap LookupRecord.learned?

/-- What an inquiry comes to when this is learned on the way. -/
inductive ComesTo : Inquiry α → List Learned → α → Prop where
  | done (value : α) : ComesTo (.done value) [] value
  | ask (question : Question) (next : Fetch question.Answer → Inquiry α)
      (fetch : Fetch question.Answer) {learned : List Learned} {value : α}
      (h : ComesTo (next fetch) learned value) :
      ComesTo (.ask question next) (⟨question, fetch⟩ :: learned) value

namespace ComesTo

variable {learned : List Learned} {value : α}

/-- What asks nothing comes to its value, and nothing is learned. -/
theorem of_pure {given : α} (h : (pure given : Inquiry α).ComesTo learned value) :
    learned = [] ∧ value = given := by
  change (Inquiry.done given).ComesTo learned value at h
  cases h
  exact ⟨rfl, rfl⟩

/-- A single lookup comes to what is learned. -/
theorem of_ask (question : Question) {fetch : Fetch question.Answer}
    (h : (lookups.ask question).ComesTo learned fetch) : learned = [⟨question, fetch⟩] := by
  cases question <;>
  · cases h with
    | ask _ _ given h =>
      cases h
      rfl

/-- What one inquiry after the other comes to: first something is learned by the one, and then by
the other. -/
theorem of_bind {inquiry : Inquiry β} {rest : β → Inquiry α}
    (h : (inquiry >>= rest).ComesTo learned value) :
    ∃ before middle after, learned = before ++ after ∧ inquiry.ComesTo before middle ∧
      (rest middle).ComesTo after value := by
  induction inquiry generalizing learned with
  | done middle => exact ⟨[], middle, learned, rfl, .done middle, h⟩
  | ask question next ih =>
    change (Inquiry.ask question fun fetch => next fetch >>= rest).ComesTo learned value at h
    cases h with
    | ask _ _ fetch h =>
      obtain ⟨before, middle, after, rfl, hfirst, hrest⟩ := ih fetch h
      exact ⟨⟨question, fetch⟩ :: before, middle, after, rfl, .ask question next fetch hfirst,
        hrest⟩

/-- What a run comes to is what its inquiry comes to by what was learned on the run. -/
theorem of_start_run {graph : KnowledgeGraph σ} {inquiry : Inquiry α} {desk after : Desk (Cached σ)}
    (hrun : (inquiry.run (cachedLookups graph)).start desk = (.ok value, after)) :
    inquiry.ComesTo (inquiry.learned graph desk) value := by
  induction inquiry generalizing desk with
  | done given =>
    cases hrun
    exact .done _
  | ask question next ih =>
    rw [start_run_ask] at hrun
    rcases hstart : ((cachedLookups graph).ask question).start desk with ⟨problem | fetch, between⟩
    · simp [hstart] at hrun
    · simp only [hstart] at hrun
      simp only [Inquiry.learned, trace, hstart, List.filterMap_cons, LookupRecord.learned?]
      exact .ask question next fetch (ih fetch hrun)

end ComesTo

end Inquiry

namespace GraphCheck

variable [Scalar α]

/-- The verdict on a name that is known. -/
theorem existence_of_known (wording : Wording α) {fetch : Fetch Sighting} {sighting : Sighting}
    (hfetch : fetch.answer? = some sighting) (hknown : sighting.known = true) :
    existence wording fetch =
      ((Verdict.plain .valid wording.found
          (wording.label ++ " '" ++ wording.name ++ "'" ++ " found in knowledge graph")).withDetail
        "repositories" (.texts sighting.locations), sighting.locations) := by
  cases fetch <;> cases hfetch <;> simp [existence, hknown]

/-- The verdict on a name that is not known. -/
theorem existence_of_missing (wording : Wording α) {fetch : Fetch Sighting}
    (hmissing : isMissing fetch = true) :
    existence wording fetch =
      ((Verdict.plain wording.missingStatus wording.missing
          (wording.label ++ " '" ++ wording.name ++ "'" ++ " not found in knowledge graph")
        ).withSuggestion
          ("Verify that '" ++ wording.name ++ "' exists in the library you are using"), []) := by
  cases fetch <;> simp_all [existence, isMissing]

/-- Whether the arguments of a call are known, and what was told of the signature refuses them by
the given verdict. -/
structure Refuses (told : Fetch (Option Signature)) (arguments : Option CallArguments)
    (judged : Verdict α) : Prop where
  compared : ∃ given signature, arguments = some given ∧ given.hasUnpacking = false ∧
    told.answer? = some (some signature) ∧
    judged = checkArguments signature.params given.positional given.keywords
  refused : judged.status ≠ .valid

/-- Whether a verdict on a call has the status and the confidence of the one on its name, and tells
of a fault if that one does. -/
structure Keeps (verdict verdict' : Verdict α) : Prop where
  status : verdict'.status = verdict.status
  confidence : verdict'.confidence = verdict.confidence
  error : verdict'.details.get? "error" = verdict.details.get? "error"

/-- Whether a verdict on a call is that on its name, weakened by the one on its arguments. -/
structure Weakens (verdict judged verdict' : Verdict α) : Prop where
  status : verdict'.status = .uncertain
  confidence : verdict'.confidence =
    Scalar.clampUnit (Scalar.least verdict.confidence judged.confidence)
  error : verdict'.details.get? "error" = verdict.details.get? "error"

omit [Scalar α] in
/-- A detail of another name keeps what a verdict says. -/
theorem keeps_withDetail (verdict : Verdict α) {name : String} (hname : name ≠ "error")
    (datum : Datum α) : Keeps verdict (verdict.withDetail name datum) :=
  ⟨rfl, rfl, Ordered.get?_put_of_ne _ _ hname⟩

omit [Scalar α] in
/-- A suggestion keeps what a verdict says. -/
theorem keeps_withSuggestion (verdict : Verdict α) (suggestion : String) :
    Keeps verdict (verdict.withSuggestion suggestion) :=
  ⟨rfl, rfl, rfl⟩

/-- The verdict on the arguments of a call weakens the one on its name unless it is valid. -/
theorem keeps_or_weakens_withArguments (verdict judged : Verdict α) :
    judged.status = .valid ∧ Keeps verdict (withArguments verdict judged) ∨
      judged.status ≠ .valid ∧ Weakens verdict judged (withArguments verdict judged) := by
  unfold withArguments
  dsimp only
  split
  · rename_i hvalid
    exact .inl ⟨hvalid, keeps_withDetail verdict (by decide) _⟩
  · rename_i hrefused
    exact .inr ⟨hrefused, rfl, rfl, Ordered.get?_put_of_ne _ _ (by decide)⟩

/-- The verdict on a call is the one on its name, unless the signature refuses the arguments. -/
theorem keeps_or_weakens_withSignature (verdict : Verdict α) (told : Fetch (Option Signature))
    (arguments : Option CallArguments) :
    Keeps verdict (withSignature verdict told arguments) ∨
      ∃ judged, Refuses told arguments judged ∧
        Weakens verdict judged (withSignature verdict told arguments) := by
  have hskipped (reason : String) :
      Keeps verdict (verdict.withDetail "parameter_validation" (.str reason)) :=
    keeps_withDetail verdict (by decide) _
  cases arguments with
  | none => exact .inl ⟨rfl, rfl, rfl⟩
  | some given =>
    cases hpacked : given.hasUnpacking with
    | true =>
      simp only [withSignature, hpacked, if_true]
      exact .inl (hskipped _)
    | false =>
      simp only [withSignature, hpacked, Bool.false_eq_true, if_false]
      have hcompared (signature : Signature) (htold : told.answer? = some (some signature)) :
          let judged : Verdict α := checkArguments signature.params given.positional given.keywords
          Keeps verdict (withArguments verdict judged) ∨
            ∃ judged', Refuses told (some given) judged' ∧
              Weakens verdict judged' (withArguments verdict judged) := by
        intro judged
        rcases keeps_or_weakens_withArguments verdict judged with ⟨_, h⟩ | ⟨hrefused, h⟩
        · exact .inl h
        · exact .inr ⟨judged, ⟨⟨given, signature, rfl, hpacked, htold, rfl⟩, hrefused⟩, h⟩
      cases told with
      | cached answer | fresh answer =>
        cases answer with
        | none => exact .inl (hskipped _)
        | some signature => exact hcompared signature rfl
      | malformed reason => exact .inl (hskipped _)

open Inquiry (ComesTo)
open Learned (symbols signatures)

/-- Whether a lookup decides a row of lookups: all others have found nothing. -/
structure Decides (fetch : Fetch Sighting) (looked : List (Fetch Sighting)) : Prop where
  mem : fetch ∈ looked
  missing : ∀ other ∈ looked, other = fetch ∨ isMissing other = true

/-- A single lookup decides. -/
theorem decides_singleton (fetch : Fetch Sighting) : Decides fetch [fetch] :=
  ⟨by simp, fun _ h => .inl (List.mem_singleton.mp h)⟩

/-- A malformed answer is the one that decides. -/
theorem Decides.eq_malformed {fetch : Fetch Sighting} {looked : List (Fetch Sighting)}
    (h : Decides fetch looked) {reason : String} (hmem : .malformed reason ∈ looked) :
    fetch = .malformed reason := by
  rcases h.missing _ hmem with heq | hmissing
  · exact heq.symm
  · simp [isMissing] at hmissing

/-- What is learned of the signature of a method. -/
theorem learned_methodSignature {owner method : String} {learned : List Learned}
    {told : Fetch (Option Signature)}
    (h : (Inquiry.lookups.methodSignature owner method).ComesTo learned told) :
    symbols learned = [] ∧ signatures learned = [told] := by
  obtain rfl := ComesTo.of_ask (.methodSignature owner method) h
  exact ⟨rfl, rfl⟩

/-- What is learned of the signature of a function. -/
theorem learned_functionSignature {path name : String} {learned : List Learned}
    {told : Fetch (Option Signature)}
    (h : (Inquiry.lookups.functionSignature path name).ComesTo learned told) :
    symbols learned = [] ∧ signatures learned = [told] := by
  obtain rfl := ComesTo.of_ask (.functionSignature path name) h
  exact ⟨rfl, rfl⟩

/-- The meanings of a member are looked up until one is known. -/
theorem learned_resolveFallbacks {learned : List Learned} {first : Fetch Sighting} {cached : Bool}
    {meanings : List (SymbolKind × List String)} {resolved : Fetch Sighting × Bool}
    (h : (resolveFallbacks Inquiry.lookups first cached meanings).ComesTo learned resolved) :
    Decides resolved.1 (first :: symbols learned) ∧
      (isMissing resolved.1 = true →
        learned.map Sigma.fst =
          meanings.map fun meaning => Question.sighting meaning.1 meaning.2) := by
  induction meanings generalizing first cached learned with
  | nil =>
    obtain ⟨rfl, rfl⟩ := h.of_pure
    exact ⟨decides_singleton first, fun _ => rfl⟩
  | cons meaning rest ih =>
    obtain ⟨symbol, qualifiers⟩ := meaning
    simp only [resolveFallbacks] at h
    split at h
    · rename_i hmissing
      obtain ⟨_, next, after, rfl, hlookup, hrest⟩ := h.of_bind
      obtain rfl := ComesTo.of_ask (.sighting symbol qualifiers) hlookup
      obtain ⟨hdecides, hasked⟩ := ih hrest
      refine ⟨⟨List.mem_cons_of_mem _ hdecides.mem, fun other hother => ?_⟩, fun hnone => ?_⟩
      · rcases List.mem_cons.mp hother with rfl | hother
        · exact .inr hmissing
        · exact hdecides.missing other hother
      · rw [List.map_append, hasked hnone]
        rfl
    · rename_i hknown
      obtain ⟨rfl, rfl⟩ := h.of_pure
      exact ⟨decides_singleton first, fun hmissing => absurd hmissing hknown⟩

end GraphCheck

end UsageAudit
