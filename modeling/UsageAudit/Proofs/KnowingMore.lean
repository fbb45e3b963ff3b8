import UsageAudit.Proofs.ArgumentConfidence
import UsageAudit.Proofs.Learned
import UsageAudit.Proofs.PlainScripts

/-!
# Knowing more

A graph that knows more symbols than another, and tells the same signatures, never lowers the
confidence in a usage. This has to be shown way by way: a symbol that becomes known is compared with
its signature, and an access to a member stops at another of its meanings. No verdict on the
arguments of a call is as bad as the one on a name that is not known, and so the confidence in a
script does not fall either, and nothing new is found in it.
-/

namespace UsageAudit

/-- Whether a check comes of the same target as another, and its confidence is no lower. -/
structure Check.RisesTo (check check' : Check Rat) : Prop where
  element : check.element = check'.element
  kind : check.kind = check'.kind
  target : check.target = check'.target
  confidence : check.verdict.confidence ≤ check'.verdict.confidence

/-- Whether the confidence in what is not known is below that in what is known, and not above that
in a call whose arguments cannot be bound. -/
structure Settings.RewardsKnowing (settings : Settings Rat) : Prop where
  notFound_le_classFound : settings.notFound ≤ settings.classFound
  notFound_le_memberFound : settings.notFound ≤ settings.memberFound
  notFound_le_conflict : settings.notFound ≤ Binding.conflictConfidence
  attributeNotFound_le : settings.attributeNotFound ≤ settings.memberFound

/-- The standard settings reward knowing. -/
theorem Settings.rewardsKnowing_standard : (standard : Settings Rat).RewardsKnowing := by
  constructor <;> norm_num [standard, Binding.conflictConfidence]

namespace FixedGraph

/-- Whether a graph knows a symbol. -/
def Knows (graph : FixedGraph) (kind : SymbolKind) (qualifiers : List String) : Prop :=
  ∃ sighting, graph.findSymbol kind qualifiers = .ok sighting ∧ sighting.known = true

/-- Whether a graph has an answer to every question. -/
structure FaultFree (graph : FixedGraph) : Prop where
  symbol : ∀ kind qualifiers, ∃ sighting, graph.findSymbol kind qualifiers = .ok sighting
  methodSignature : ∀ owner method, ∃ signature,
    graph.findMethodSignature owner method = .ok signature
  functionSignature : ∀ path name, ∃ signature,
    graph.findFunctionSignature path name = .ok signature

/-- Whether a second graph knows all the symbols that the first one knows, and tells the same
signatures. -/
structure GrowsTo (graph graph' : FixedGraph) : Prop where
  knows : ∀ kind qualifiers, graph.Knows kind qualifiers → graph'.Knows kind qualifiers
  methodSignature : ∀ owner method,
    graph.findMethodSignature owner method = graph'.findMethodSignature owner method
  functionSignature : ∀ path name,
    graph.findFunctionSignature path name = graph'.findFunctionSignature path name

variable {graph graph' : FixedGraph}

/-- What a graph answers to a question says whether it knows the symbol. -/
theorem knows_iff {kind : SymbolKind} {qualifiers : List String} {sighting : Sighting}
    (h : graph.findSymbol kind qualifiers = .ok sighting) :
    graph.Knows kind qualifiers ↔ sighting.known = true := by
  simp [Knows, h]

/-- The answers of both graphs to a question. -/
theorem GrowsTo.exists_sightings (hgrows : graph.GrowsTo graph') (hfree : graph.FaultFree)
    (hfree' : graph'.FaultFree) (kind : SymbolKind) (qualifiers : List String) :
    ∃ sighting sighting', graph.findSymbol kind qualifiers = .ok sighting ∧
      graph'.findSymbol kind qualifiers = .ok sighting' ∧
      (sighting.known = true → sighting'.known = true) := by
  obtain ⟨sighting, h⟩ := hfree.symbol kind qualifiers
  obtain ⟨sighting', h'⟩ := hfree'.symbol kind qualifiers
  refine ⟨sighting, sighting', h, h', fun hknown => ?_⟩
  exact (knows_iff h').mp (hgrows.knows kind qualifiers ((knows_iff h).mpr hknown))

end FixedGraph

namespace GraphCheck

open Inquiry (Matched)

variable (wording : Wording Rat) (sighting : Sighting)

/-- The confidence in a name that was looked up. -/
theorem confidence_existence : (existence wording (.fresh sighting)).1.confidence =
    Scalar.clampUnit (if sighting.known then wording.found else wording.missing) := by
  simp only [existence]
  split <;> rfl

/-- A name that was looked up is valid if and only if it is known. -/
theorem status_existence {α : Type} [Scalar α] (wording : Wording α) (sighting : Sighting)
    (hmissing : wording.missingStatus ≠ .valid) :
    (existence wording (.fresh sighting)).1.status = .valid ↔ sighting.known = true := by
  simp only [existence]
  split
  · rename_i hknown
    simpa [Verdict.withDetail, Verdict.plain] using hknown
  · rename_i hunknown
    simpa [Verdict.withSuggestion, Verdict.plain, hmissing] using hunknown

/-- What the arguments of a call add to the verdict on its name takes the confidence down at most to
that in arguments that cannot be bound. -/
theorem le_confidence_withSignature {verdict : Verdict Rat} {bound : Rat}
    (hverdict : bound ≤ verdict.confidence) (hbound : bound ≤ Binding.conflictConfidence)
    (hunit : InUnit bound) (signature : Option Signature) (arguments : Option CallArguments) :
    bound ≤ (withSignature verdict (.fresh signature) arguments).confidence := by
  rcases keeps_or_weakens_withSignature verdict (.fresh signature) arguments with
    hkeeps | ⟨judged, hrefuses, hweakens⟩
  · rw [hkeeps.confidence]
    exact hverdict
  · obtain ⟨given, signature, _, _, _, rfl⟩ := hrefuses.compared
    have harguments := hbound.trans (Binding.conflictConfidence_le_checkArguments
      signature.params given.positional given.keywords)
    rw [hweakens.confidence, Scalar.least_eq_min, ← Scalar.clampUnit_of_inUnit hunit]
    exact Scalar.clampUnit_mono (le_min hverdict harguments)

/-- What the arguments add depends on the confidence in the name alone. -/
theorem confidence_withSignature_congr {verdict verdict' : Verdict Rat}
    (h : verdict.confidence = verdict'.confidence) (fetch : Fetch (Option Signature))
    (arguments : Option CallArguments) :
    (withSignature verdict fetch arguments).confidence =
      (withSignature verdict' fetch arguments).confidence := by
  cases arguments with
  | none => exact h
  | some arguments =>
    simp only [withSignature]
    split
    · exact h
    · split
      · simp only [withArguments]
        split
        · exact h
        · simp [h]
      · simp only [withArguments]
        split
        · exact h
        · simp [h]
      · exact h
      · exact h
      · exact h

/-- What a call is checked as. -/
structure CallForm where
  kind : CheckKind
  target : String
  wording : Wording Rat
  symbol : SymbolKind
  qualifiers : List String
  /-- The signature of what is called. -/
  signature : FixedGraph → Except SourceFault (Option Signature)
  /-- What is said of a name that is not known. -/
  missing : Verdict Rat → Verdict Rat

namespace CallForm

variable (form : CallForm)

/-- The check of a call. -/
def check (element : ElementRef) (arguments : Option CallArguments) (graph : FixedGraph) :
    Except Problem (Check Rat) := do
  let fetch ← (directLookups graph).sighting form.symbol form.qualifiers
  let (verdict, repositories) := existence form.wording fetch
  if verdict.status = .valid then
    let signature ← fetchDirect (form.signature graph)
    return checkOf element form.kind form.target (withSignature verdict signature arguments)
      (fetch.isCached && signature.isCached) repositories
  else
    return checkOf element form.kind form.target (form.missing verdict) fetch.isCached repositories

/-- The verdict on a call, from what was looked up of its name and of its signature. -/
def verdict (sighting : Sighting) (signature : Option Signature)
    (arguments : Option CallArguments) : Verdict Rat :=
  let verdict := (existence form.wording (.fresh sighting)).1
  if verdict.status = .valid then withSignature verdict (.fresh signature) arguments
  else form.missing verdict

/-- A call is checked by the verdict on it. -/
theorem check_eq {graph : FixedGraph} {sighting : Sighting} {signature : Option Signature}
    (hsymbol : graph.findSymbol form.symbol form.qualifiers = .ok sighting)
    (hsignature : form.signature graph = .ok signature) (element : ElementRef)
    (arguments : Option CallArguments) :
    form.check element arguments graph = .ok (checkOf element form.kind form.target
      (form.verdict sighting signature arguments) false
      (existence form.wording (.fresh sighting)).2) := by
  simp only [check, directLookups, hsymbol, hsignature, fetchDirect, verdict, bind, Except.bind]
  split <;> rfl

/-- Whether what is said of a name that is not known rewards knowing more. -/
structure Fair (form : CallForm) : Prop where
  status : form.wording.missingStatus ≠ .valid
  found : form.wording.missing ≤ form.wording.found
  conflict : form.wording.missing ≤ Binding.conflictConfidence
  keeps : ∀ verdict, (form.missing verdict).confidence = verdict.confidence

variable {form}

/-- A call is not trusted less when its name becomes known. -/
theorem Fair.confidence_mono (hfair : form.Fair) {sighting sighting' : Sighting}
    (h : sighting.known = true → sighting'.known = true) (signature : Option Signature)
    (arguments : Option CallArguments) :
    (form.verdict sighting signature arguments).confidence ≤
      (form.verdict sighting' signature arguments).confidence := by
  have hbound : Scalar.clampUnit form.wording.missing ≤ Binding.conflictConfidence := by
    have hconflict := hfair.conflict
    rw [Binding.conflictConfidence_eq] at hconflict ⊢
    rw [← Scalar.clampUnit_of_inUnit (x := 3 / 10) (by norm_num [InUnit])]
    exact Scalar.clampUnit_mono hconflict
  simp only [verdict, status_existence _ _ hfair.status]
  cases hknown : sighting.known with
  | true =>
    simp only [h hknown, if_true]
    refine (confidence_withSignature_congr ?_ _ _).le
    simp [confidence_existence, hknown, h hknown]
  | false =>
    have hleft : (form.missing (existence form.wording (.fresh sighting)).1).confidence =
        Scalar.clampUnit form.wording.missing := by
      simp [hfair.keeps, confidence_existence, hknown]
    simp only [Bool.false_eq_true, if_false, hleft]
    cases hknown' : sighting'.known with
    | true =>
      simp only [if_true]
      refine le_confidence_withSignature ?_ hbound (Scalar.inUnit_clampUnit _) _ _
      simpa [confidence_existence, hknown'] using Scalar.clampUnit_mono hfair.found
    | false => simp [hfair.keeps, confidence_existence, hknown']

variable (settings : Settings Rat)

/-- The making of an object. -/
def instantiation (path : String) : CallForm where
  kind := .instantiation
  target := path
  wording := ⟨"Class", path, settings.classFound, .notFound, settings.notFound⟩
  symbol := .ofClass
  qualifiers := [path]
  signature graph := graph.findMethodSignature path "__init__"
  missing := id

/-- A call of a method of a class. -/
def methodCall (owner method : String) : CallForm where
  kind := .methodCall
  target := owner ++ "." ++ method
  wording := ⟨"Method", owner ++ "." ++ method, settings.memberFound, .notFound, settings.notFound⟩
  symbol := .method
  qualifiers := [owner, method]
  signature graph := graph.findMethodSignature owner method
  missing verdict :=
    verdict.withSuggestion ("Check that '" ++ method ++ "' is a method of " ++ owner)

/-- A call of a function of a module. -/
def functionCall (path name : String) : CallForm where
  kind := .functionCall
  target := path ++ "." ++ name
  wording := ⟨"Function", path ++ "." ++ name, settings.memberFound, .notFound, settings.notFound⟩
  symbol := .function
  qualifiers := [path, name]
  signature graph := graph.findFunctionSignature path name
  missing := id

variable {settings} (hsettings : settings.RewardsKnowing)

include hsettings

/-- The making of an object rewards knowing more. -/
theorem fair_instantiation (path : String) : (instantiation settings path).Fair :=
  ⟨by simp [instantiation], hsettings.notFound_le_classFound, hsettings.notFound_le_conflict,
    fun _ => rfl⟩

/-- A call of a method rewards knowing more. -/
theorem fair_methodCall (owner method : String) : (methodCall settings owner method).Fair :=
  ⟨by simp [methodCall], hsettings.notFound_le_memberFound, hsettings.notFound_le_conflict,
    fun _ => rfl⟩

/-- A call of a function rewards knowing more. -/
theorem fair_functionCall (path name : String) : (functionCall settings path name).Fair :=
  ⟨by simp [functionCall], hsettings.notFound_le_memberFound, hsettings.notFound_le_conflict,
    fun _ => rfl⟩

end CallForm

/-- Two runs of a check that both come to an end, the second with no lower confidence. -/
def Rises (run run' : Except Problem (Check Rat)) : Prop :=
  ∃ check check', run = .ok check ∧ run' = .ok check' ∧ check.RisesTo check'

section Targets

variable {settings : Settings Rat} (hsettings : settings.RewardsKnowing)
  {graph graph' : FixedGraph} (hfree : graph.FaultFree) (hfree' : graph'.FaultFree)
  (hgrows : graph.GrowsTo graph') (element : ElementRef)

include hfree hfree' hgrows

/-- A call is not trusted less by a graph that knows more. -/
theorem CallForm.Fair.rises {form : CallForm} (hfair : form.Fair) {signature : Option Signature}
    (hsignature : form.signature graph = .ok signature)
    (hsignature' : form.signature graph' = .ok signature) (arguments : Option CallArguments) :
    Rises (form.check element arguments graph) (form.check element arguments graph') := by
  obtain ⟨sighting, sighting', h, h', hknown⟩ :=
    hgrows.exists_sightings hfree hfree' form.symbol form.qualifiers
  exact ⟨_, _, form.check_eq h hsignature element arguments,
    form.check_eq h' hsignature' element arguments, rfl, rfl, rfl,
    hfair.confidence_mono hknown signature arguments⟩

include hsettings

/-- An import is not trusted less by a graph that knows more. -/
theorem rises_checkImport (path : String) :
    Rises (checkImport (directLookups graph) settings element path)
      (checkImport (directLookups graph') settings element path) := by
  obtain ⟨sighting, sighting', h, h', hknown⟩ :=
    hgrows.exists_sightings hfree hfree' .ofModule [path]
  simp only [checkImport, directLookups, h, h', fetchDirect]
  refine ⟨_, _, rfl, rfl, rfl, rfl, rfl, ?_⟩
  simp only [checkOf, Verdict.confidence_withDetail, confidence_existence]
  apply Scalar.clampUnit_mono
  split
  · rename_i hleft
    simp [hknown hleft]
  · split
    · exact hsettings.notFound_le_classFound
    · exact le_rfl

omit hsettings hfree hfree' hgrows in
/-- What a member means is known, once its meanings were looked up, if one of them is. -/
theorem exists_resolved (hfree : graph.FaultFree) (first : Sighting) (cached : Bool)
    (meanings : List (SymbolKind × List String)) :
    ∃ last cached', resolveFallbacks (directLookups graph) (.fresh first) cached meanings =
        .ok (.fresh last, cached') ∧
      (last.known = true ↔
        first.known = true ∨ ∃ meaning ∈ meanings, graph.Knows meaning.1 meaning.2) := by
  induction meanings generalizing first cached with
  | nil => exact ⟨first, cached, rfl, by simp⟩
  | cons meaning rest ih =>
    obtain ⟨symbol, qualifiers⟩ := meaning
    cases hknown : first.known with
    | true =>
      refine ⟨first, cached, ?_, by simp [hknown]⟩
      simp [resolveFallbacks, isMissing, hknown, pure, Except.pure]
    | false =>
      obtain ⟨next, hnext⟩ := hfree.symbol symbol qualifiers
      obtain ⟨last, cached', hlast, hiff⟩ := ih next (cached && false)
      refine ⟨last, cached', ?_, ?_⟩
      · simpa [resolveFallbacks, isMissing, hknown, directLookups, hnext, fetchDirect, bind,
          Except.bind, Fetch.isCached] using hlast
      · simp [hiff, FixedGraph.knows_iff hnext]

/-- An access to a member is not trusted less by a graph that knows more. -/
theorem rises_checkAttribute (owner name : String) (ownerIsClass : Bool) :
    Rises (checkAttribute (directLookups graph) settings element owner name ownerIsClass)
      (checkAttribute (directLookups graph') settings element owner name ownerIsClass) := by
  obtain ⟨first, first', h, h', hfirst⟩ :=
    hgrows.exists_sightings hfree hfree' .member [owner, name]
  obtain ⟨last, cached, hlast, hiff⟩ :=
    exists_resolved hfree first false (fallbacks owner name ownerIsClass)
  obtain ⟨last', cached', hlast', hiff'⟩ :=
    exists_resolved hfree' first' false (fallbacks owner name ownerIsClass)
  have hknown : last.known = true → last'.known = true := by
    rw [hiff, hiff']
    rintro (hleft | ⟨meaning, hmem, hleft⟩)
    · exact .inl (hfirst hleft)
    · exact .inr ⟨meaning, hmem, hgrows.knows _ _ hleft⟩
  simp only [checkAttribute, directLookups, h, h', fetchDirect, bind, Except.bind,
    Fetch.isCached] at hlast hlast' ⊢
  rw [hlast, hlast']
  refine ⟨_, _, rfl, rfl, rfl, rfl, rfl, ?_⟩
  simp only [checkOf, Verdict.confidence_withDetail, confidence_existence]
  apply Scalar.clampUnit_mono
  split
  · rename_i hleft
    simp [hknown hleft]
  · split
    · exact hsettings.attributeNotFound_le
    · exact le_rfl

/-- A target is not trusted less by a graph that knows more. -/
theorem rises_checkTarget (target : Target) :
    Rises (checkTarget (directLookups graph) settings target)
      (checkTarget (directLookups graph') settings target) := by
  obtain ⟨element, kind, name, arguments⟩ := target
  cases name with
  | ofModule path => exact rises_checkImport hsettings hfree hfree' hgrows element path
  | ofClass path =>
    obtain ⟨signature, h⟩ := hfree.methodSignature path "__init__"
    exact (CallForm.fair_instantiation hsettings path).rises hfree hfree' hgrows element h
      ((hgrows.methodSignature _ _).symm.trans h) arguments
  | method owner name =>
    obtain ⟨signature, h⟩ := hfree.methodSignature owner name
    exact (CallForm.fair_methodCall hsettings owner name).rises hfree hfree' hgrows element h
      ((hgrows.methodSignature _ _).symm.trans h) arguments
  | function path name =>
    obtain ⟨signature, h⟩ := hfree.functionSignature path name
    exact (CallForm.fair_functionCall hsettings path name).rises hfree hfree' hgrows element h
      ((hgrows.functionSignature _ _).symm.trans h) arguments
  | member owner name ownerIsClass =>
    exact rises_checkAttribute hsettings hfree hfree' hgrows element owner name ownerIsClass

/-- The checks of a row of targets come to an end, none with less confidence by a graph that knows
more. -/
theorem rises_mapM (targets : List Target) :
    ∃ checks checks', targets.mapM (checkTarget (directLookups graph) settings) = .ok checks ∧
      targets.mapM (checkTarget (directLookups graph') settings) = .ok checks' ∧
      List.Forall₂ Check.RisesTo checks checks' := by
  induction targets with
  | nil => exact ⟨[], [], rfl, rfl, .nil⟩
  | cons target rest ih =>
    obtain ⟨check, check', h, h', hrises⟩ :=
      rises_checkTarget hsettings hfree hfree' hgrows target
    obtain ⟨checks, checks', hrest, hrest', hall⟩ := ih
    refine ⟨check :: checks, check' :: checks', ?_, ?_, .cons hrises hall⟩
    · simp [h, hrest, bind, Except.bind, pure, Except.pure]
    · simp [h', hrest', bind, Except.bind, pure, Except.pure]

/-- A script is checked to the end, and by a graph that knows more no usage in it is trusted
less. -/
theorem rises_checkScript (analysis : Analysis) :
    ∃ outcome outcome', checkScript (directLookups graph) settings analysis = .ok outcome ∧
      checkScript (directLookups graph') settings analysis = .ok outcome' ∧
      outcome.skipped = outcome'.skipped ∧
      List.Forall₂ Check.RisesTo outcome.checks outcome'.checks := by
  obtain ⟨checks, checks', h, h', hall⟩ :=
    rises_mapM hsettings hfree hfree' hgrows analysis.plan.targets
  refine ⟨⟨checks, analysis.plan.skipped⟩, ⟨checks', analysis.plan.skipped⟩, ?_, ?_, rfl, hall⟩
  · simp [checkScript, checkPlan, h, bind, Except.bind, pure, Except.pure]
  · simp [checkScript, checkPlan, h', bind, Except.bind, pure, Except.pure]

end Targets

end GraphCheck

/-- Checks that differ only in where answers came from have the same confidence. -/
theorem Check.SameButOrigin.risesTo {check check' : Check Rat} (h : check.SameButOrigin check') :
    check.RisesTo check' ∧ check'.RisesTo check := by
  obtain ⟨rest, cached, cached', rfl, rfl⟩ := h
  exact ⟨⟨rfl, rfl, rfl, le_rfl⟩, ⟨rfl, rfl, rfl, le_rfl⟩⟩

/-- A confidence that rises twice has risen. -/
theorem Check.RisesTo.trans {check check' check'' : Check Rat} (h : check.RisesTo check')
    (h' : check'.RisesTo check'') : check.RisesTo check'' :=
  ⟨h.element.trans h'.element, h.kind.trans h'.kind, h.target.trans h'.target,
    h.confidence.trans h'.confidence⟩

/-- Confidences that rise twice, one by one, have risen. -/
theorem Check.RisesTo.forall₂_trans {checks checks' checks'' : List (Check Rat)}
    (h : List.Forall₂ RisesTo checks checks') (h' : List.Forall₂ RisesTo checks' checks'') :
    List.Forall₂ RisesTo checks checks'' := by
  induction h generalizing checks'' with
  | nil => exact h'
  | cons hfirst _ ih =>
    cases h' with
    | cons hfirst' hrest' => exact .cons (hfirst.trans hfirst') (ih hrest')

namespace Fusion

variable {settings : Settings Rat}

/-- The findings that rest on the graph are those that the checks give rise to. -/
theorem mem_hallucinations_structural {graph : GraphOutcome Rat} {semantic : SemanticOutcome Rat}
    {finding : Hallucination Rat} (hevidence : finding.evidence = .structural) :
    finding ∈ (fuse settings graph semantic).hallucinations ↔
      ∃ check ∈ graph.checks, structural? settings check = some finding := by
  have hweak : ∀ grounding, semantic? settings grounding ≠ some finding := by
    intro grounding h
    unfold semantic? at h
    split at h
    · obtain rfl := Option.some.inj h
      simp at hevidence
    · cases h
  simp only [fuse, findings, List.mem_mergeSort, List.mem_append, List.mem_filterMap]
  constructor
  · rintro (h | h)
    · exact h
    · split at h
      · obtain ⟨grounding, _, hfinding⟩ := List.mem_filterMap.mp h
        exact absurd hfinding (hweak grounding)
      · simp at h
  · exact .inl

/-- The finding that a check gives rise to is about the element of the check. -/
theorem structural?_eq_some {check : Check Rat} {finding : Hallucination Rat}
    (h : structural? settings check = some finding) :
    check.verdict.confidence < settings.hallucination ∧ finding.evidence = .structural ∧
      finding.element = check.element := by
  unfold structural? at h
  split at h
  · rename_i hless
    obtain rfl := Option.some.inj h
    exact ⟨by simpa [Scalar.less] using hless, rfl, rfl⟩
  · cases h

/-- A check whose confidence is below the threshold gives rise to a finding. -/
theorem exists_structural? {check : Check Rat}
    (h : check.verdict.confidence < settings.hallucination) :
    ∃ finding, structural? settings check = some finding := by
  simp [structural?, Scalar.less, h]

/-- What the checks find in a script was found before the confidence in its usages rose. -/
theorem exists_finding_of_rises {outcome outcome' : GraphOutcome Rat}
    (hrises : List.Forall₂ Check.RisesTo outcome.checks outcome'.checks)
    {semantic : SemanticOutcome Rat} {finding' : Hallucination Rat}
    (hmem : finding' ∈ (fuse settings outcome' semantic).hallucinations)
    (hevidence : finding'.evidence = .structural) :
    ∃ finding ∈ (fuse settings outcome semantic).hallucinations,
      finding.evidence = .structural ∧ finding.element = finding'.element := by
  obtain ⟨check', hcheck', hfinding'⟩ := (mem_hallucinations_structural hevidence).mp hmem
  obtain ⟨check, hcheck, hrise⟩ := exists_of_mem_right hrises hcheck'
  obtain ⟨hlow, _, helement⟩ := structural?_eq_some hfinding'
  obtain ⟨finding, hfinding⟩ := exists_structural? (hrise.confidence.trans_lt hlow)
  obtain ⟨_, hstructural, helement'⟩ := structural?_eq_some hfinding
  refine ⟨finding, (mem_hallucinations_structural hstructural).mpr ⟨check, hcheck, hfinding⟩,
    hstructural, ?_⟩
  rw [helement', helement, hrise.element]

end Fusion

namespace GraphCheck

variable {σ σ' : Type} {settings : Settings Rat}

/-- A script that is checked through an empty cache, without being cancelled, comes to the same as
by asking the graph directly. -/
theorem exists_of_run {graph : KnowledgeGraph σ} {fixed : FixedGraph}
    (hgraph : graph.AnswersAs fixed) {analysis : Analysis}
    (hplain : ∀ element ∈ analysis.elements, element.Plain) {direct : GraphOutcome Rat}
    (hdirect : checkScript (directLookups fixed) settings analysis = .ok direct) {start : σ}
    {outcome : Except Problem (GraphOutcome Rat)} {desk : Desk (Cached σ)}
    (hrun : (checkScript (cachedLookups graph) settings analysis).start ⟨⟨.empty, start⟩, false⟩ =
      (outcome, desk)) (hlive : desk.cancelled = false) :
    ∃ checked, outcome = .ok checked ∧ checked.SameButOrigin direct := by
  have hagree := (matched_checkScript settings hplain).agree hgraph ⟨⟨.empty, start⟩, false⟩
    (.empty fixed)
  simp only [run_checkScript, hrun, hdirect] at hagree
  exact (hagree hlive).exists_of_ok

end GraphCheck

/-- A script is checked through empty caches against two graphs whose answers never change, and the
second knows all that the first one knows. Then no usage is trusted less by the second one, the
confidence in the script is no lower, whatever the examples say, and whatever the checks find in it
was found by the first one, too. -/
theorem Analysis.knowing_more {script path : String} {analysis : Analysis}
    (hscript : Analysis.ofScript script path = .ok analysis) {σ σ' : Type}
    {graph : KnowledgeGraph σ} {graph' : KnowledgeGraph σ'} {fixed fixed' : FixedGraph}
    (hgraph : graph.AnswersAs fixed) (hgraph' : graph'.AnswersAs fixed')
    (hfree : fixed.FaultFree) (hfree' : fixed'.FaultFree) (hgrows : fixed.GrowsTo fixed')
    {start : σ} {start' : σ'} {outcome outcome' : Except Problem (GraphOutcome Rat)}
    {desk : Desk (Cached σ)} {desk' : Desk (Cached σ')}
    (hrun : (GraphCheck.checkScript (cachedLookups graph) .standard analysis).start
      ⟨⟨.empty, start⟩, false⟩ = (outcome, desk)) (hlive : desk.cancelled = false)
    (hrun' : (GraphCheck.checkScript (cachedLookups graph') .standard analysis).start
      ⟨⟨.empty, start'⟩, false⟩ = (outcome', desk')) (hlive' : desk'.cancelled = false) :
    ∃ checked checked', outcome = .ok checked ∧ outcome' = .ok checked' ∧
      checked.skipped = checked'.skipped ∧
      List.Forall₂ Check.RisesTo checked.checks checked'.checks ∧
      ∀ semantic : SemanticOutcome Rat,
        (Fusion.fuse .standard checked semantic).overall ≤
            (Fusion.fuse .standard checked' semantic).overall ∧
          ∀ finding' ∈ (Fusion.fuse .standard checked' semantic).hallucinations,
            finding'.evidence = .structural →
              ∃ finding ∈ (Fusion.fuse .standard checked semantic).hallucinations,
                finding.evidence = .structural ∧ finding.element = finding'.element := by
  have hplain := Analysis.plain_of_ofScript hscript
  obtain ⟨direct, direct', hdirect, hdirect', hskipped, hrises⟩ :=
    GraphCheck.rises_checkScript Settings.rewardsKnowing_standard hfree hfree' hgrows analysis
  obtain ⟨checked, rfl, hsame⟩ := GraphCheck.exists_of_run hgraph hplain hdirect hrun hlive
  obtain ⟨checked', rfl, hsame'⟩ := GraphCheck.exists_of_run hgraph' hplain hdirect' hrun' hlive'
  have hleft : List.Forall₂ Check.RisesTo checked.checks direct.checks :=
    hsame.1.imp fun _ _ h => (Check.SameButOrigin.risesTo h).1
  have hright : List.Forall₂ Check.RisesTo direct'.checks checked'.checks :=
    hsame'.1.flip.imp fun _ _ h => (Check.SameButOrigin.risesTo h).2
  have hall := Check.RisesTo.forall₂_trans (Check.RisesTo.forall₂_trans hleft hrises) hright
  refine ⟨checked, checked', rfl, rfl, ?_, hall, fun semantic => ⟨?_, fun finding' hmem h => ?_⟩⟩
  · rw [hsame.2, hskipped, hsame'.2]
  · exact Fusion.overall_mono Settings.allInUnit_standard (hall.imp fun _ _ h => h.confidence)
      semantic
  · exact Fusion.exists_finding_of_rises hall hmem h

namespace FixedGraph

/-- A graph that knows a module. It can tell the signature of one of its functions, but does not
know the function. -/
def moduleAlone : FixedGraph where
  findSymbol
    | .ofModule, ["numpy"] => .ok (.found ["numpy"])
    | _, _ => .ok .missing
  findMethodSignature _ _ := .ok none
  findFunctionSignature _ _ := .ok (some ⟨[⟨"object", none, false, .positional⟩], none⟩)

/-- A graph that knows the module and the function. -/
def moduleAndFunction : FixedGraph where
  findSymbol
    | .ofModule, ["numpy"] | .function, ["numpy", "array"] => .ok (.found ["numpy"])
    | _, _ => .ok .missing
  findMethodSignature _ _ := .ok none
  findFunctionSignature _ _ := .ok (some ⟨[⟨"object", none, false, .positional⟩], none⟩)

/-- The graph that knows the module always has an answer. -/
theorem faultFree_moduleAlone : moduleAlone.FaultFree := by
  refine ⟨fun kind qualifiers => ?_, fun _ _ => ⟨_, rfl⟩, fun _ _ => ⟨_, rfl⟩⟩
  unfold moduleAlone
  dsimp only
  split <;> exact ⟨_, rfl⟩

/-- The graph that knows the function always has an answer. -/
theorem faultFree_moduleAndFunction : moduleAndFunction.FaultFree := by
  refine ⟨fun kind qualifiers => ?_, fun _ _ => ⟨_, rfl⟩, fun _ _ => ⟨_, rfl⟩⟩
  unfold moduleAndFunction
  dsimp only
  split <;> exact ⟨_, rfl⟩

/-- The function is all that the second graph knows besides the module. -/
theorem moduleAlone_growsTo : moduleAlone.GrowsTo moduleAndFunction := by
  refine ⟨fun kind qualifiers hknows => ?_, fun _ _ => rfl, fun _ _ => rfl⟩
  obtain ⟨sighting, hfound, hknown⟩ := hknows
  unfold moduleAlone at hfound
  dsimp only at hfound
  split at hfound
  · exact ⟨_, rfl, rfl⟩
  · cases hfound
    cases hknown

end FixedGraph

namespace Analysis

/-- A script that calls a function with one argument too many. -/
def arraySource : String := "import numpy as np\nnp.array([1], 2)\n"

/-- What the script is read as. -/
def arrayAnalysis : Analysis := ((ofScript arraySource "arrays.py").toOption).getD
  ⟨⟨"arrays.py", 0, 0, "", none⟩, []⟩

/-- What comes of checking the script against a graph. -/
def arrayRun (fixed : FixedGraph) : Except Problem (GraphOutcome Rat) × Desk (Cached Unit) :=
  (GraphCheck.checkScript (cachedLookups fixed.steady) .standard arrayAnalysis).start
    ⟨⟨.empty, ()⟩, false⟩

/-- The confidences that the checks of the script come to. -/
def arrayConfidences (fixed : FixedGraph) : Option (List Rat) :=
  (arrayRun fixed).1.toOption.map fun outcome =>
    outcome.checks.map fun check => check.verdict.confidence

/-- The script is read. -/
theorem ofScript_arraySource : ofScript arraySource "arrays.py" = .ok arrayAnalysis := by
  have hread : (ofScript arraySource "arrays.py").toOption.isSome = true := by decide +kernel
  unfold arrayAnalysis
  generalize ofScript arraySource "arrays.py" = read at hread
  cases read with
  | error error => simp [Except.toOption] at hread
  | ok analysis => rfl

/-- When the function becomes known, the call is trusted more, though it has one argument too
many. -/
theorem knowing_more_arraySource :
    (∃ checked checked', (arrayRun .moduleAlone).1 = .ok checked ∧
      (arrayRun .moduleAndFunction).1 = .ok checked' ∧
      List.Forall₂ Check.RisesTo checked.checks checked'.checks) ∧
    arrayConfidences .moduleAlone = some [4 / 5, 1 / 5] ∧
      arrayConfidences .moduleAndFunction = some [4 / 5, 3 / 10] := by
  refine ⟨?_, by decide +kernel, by decide +kernel⟩
  have hlive : (arrayRun .moduleAlone).2.cancelled = false := by decide +kernel
  have hlive' : (arrayRun .moduleAndFunction).2.cancelled = false := by decide +kernel
  cases hrun : arrayRun .moduleAlone with
  | mk outcome desk =>
    cases hrun' : arrayRun .moduleAndFunction with
    | mk outcome' desk' =>
      rw [hrun] at hlive
      rw [hrun'] at hlive'
      obtain ⟨checked, checked', h, h', _, hall, _⟩ :=
        knowing_more ofScript_arraySource FixedGraph.moduleAlone.steady_answersAs
          FixedGraph.moduleAndFunction.steady_answersAs FixedGraph.faultFree_moduleAlone
          FixedGraph.faultFree_moduleAndFunction FixedGraph.moduleAlone_growsTo hrun hlive
          hrun' hlive'
      exact ⟨checked, checked', h, h', hall⟩

end Analysis

end UsageAudit
