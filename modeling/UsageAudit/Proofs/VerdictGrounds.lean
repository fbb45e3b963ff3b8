import UsageAudit.Proofs.ArgumentConfidence
import UsageAudit.Proofs.CheckedTargets
import UsageAudit.Proofs.Learned

/-!
# What a verdict rests on

Every status of a verdict against a graph rests on something that was learned on the way to it: a
valid name was found, a name that counts as not found was not, and a call is uncertain for its
arguments alone. How far the confidence goes is told by the settings, whatever texts these are read
from.
-/

namespace UsageAudit

variable {α σ : Type}

/-- A verdict on arguments is trusted to a degree between zero and one. -/
theorem Binding.InBand.inUnit {verdict : Verdict Rat} (h : InBand verdict) :
    InUnit verdict.confidence := by
  rcases h with ⟨-, hle, hge⟩ | ⟨-, hle, hlt⟩
  · exact ⟨by linarith, by linarith⟩
  · exact ⟨by linarith, by linarith⟩

namespace Settings

/-- The confidence in a name that is known, by what it is checked as. -/
def foundConfidence (settings : Settings α) : CheckKind → α
  | .ofImport | .instantiation => settings.classFound
  | .methodCall | .functionCall | .attributeAccess => settings.memberFound

/-- The confidence in what is known lies between zero and one. -/
theorem AllInUnit.foundConfidence {settings : Settings Rat} (h : settings.AllInUnit)
    (kind : CheckKind) : InUnit (settings.foundConfidence kind) := by
  cases kind with
  | ofImport | instantiation => exact h.classFound
  | methodCall | functionCall | attributeAccess => exact h.memberFound

/-- Whatever texts are given, the confidence in a name that is not known stays low. -/
theorem notFound_ofLookup_le (lookup : String → Option String) :
    (ofLookup lookup : Settings Rat).notFound ≤ 3 / 10 := by
  have hbound : (notFoundBound : Rat) = 3 / 10 := by norm_num [notFoundBound]
  simp only [ofLookup, Scalar.least_eq_min, hbound]
  exact min_le_right ..

end Settings

namespace Verdict

open Learned (symbols signatures)
open GraphCheck (fallbacks isMissing Refuses Keeps Weakens)

/-- What an uncertain verdict on an access to a member rests on: the member was looked up by all
that it may mean, and none of it is known. -/
structure DoubtsMember (verdict : Verdict Rat) (settings : Settings Rat) (owner name : String)
    (ownerIsClass : Bool) (learned : List Learned) (repositories : List String) : Prop where
  asked : learned.map Sigma.fst = .sighting .member [owner, name] ::
    (fallbacks owner name ownerIsClass).map fun meaning => .sighting meaning.1 meaning.2
  missing : ∀ fetch ∈ symbols learned, isMissing fetch = true
  confidence : verdict.confidence = settings.attributeNotFound
  repositories : repositories = []

/-- What an uncertain verdict on a call rests on: its name is known, but the signature that was told
refuses the arguments. -/
structure DoubtsCall (verdict : Verdict Rat) (settings : Settings Rat) (kind : CheckKind)
    (arguments : Option CallArguments) (learned : List Learned) (repositories : List String) :
    Prop where
  known : ∃ fetch ∈ symbols learned, ∃ sighting, fetch.answer? = some sighting ∧
    sighting.known = true ∧ repositories = sighting.locations
  refused : ∃ told ∈ signatures learned, ∃ judged, Refuses told arguments judged ∧
    verdict.confidence = min (settings.foundConfidence kind) judged.confidence

/-- What an uncertain verdict rests on, by what was looked up. Nothing makes an import uncertain. -/
def Doubts (verdict : Verdict Rat) (settings : Settings Rat) (target : Target)
    (learned : List Learned) (repositories : List String) : Prop :=
  match target.name with
  | .ofModule _ => False
  | .member owner name ownerIsClass =>
    verdict.DoubtsMember settings owner name ownerIsClass learned repositories
  | .ofClass _ | .method .. | .function .. =>
    verdict.DoubtsCall settings target.name.kind target.arguments learned repositories

/-- What a verdict rests on, and how far its confidence goes. -/
structure RestsOn (verdict : Verdict Rat) (settings : Settings Rat) (target : Target)
    (learned : List Learned) (repositories : List String) : Prop where
  inUnit : InUnit verdict.confidence
  /-- Nothing that is looked up is ever called invalid. -/
  not_invalid : verdict.status ≠ .invalid
  valid : verdict.status = .valid → ∃ fetch ∈ symbols learned, ∃ sighting,
    fetch.answer? = some sighting ∧ sighting.known = true ∧
      verdict.confidence = settings.foundConfidence target.name.kind ∧
      repositories = sighting.locations
  notFound : verdict.status = .notFound → verdict.confidence ≤ 3 / 10 ∧ repositories = []
  malformed_iff : (∃ reason, .malformed reason ∈ symbols learned) ↔
    verdict.status = .notFound ∧ verdict.confidence = 0 ∧ verdict.details.has "error" = true
  error : ∀ reason, .malformed reason ∈ symbols learned →
    verdict.details.get? "error" = some (.str reason)
  uncertain : verdict.status = .uncertain →
    verdict.Doubts settings target learned repositories

namespace RestsOn

variable {verdict verdict' : Verdict Rat} {settings : Settings Rat} {target : Target}
  {learned : List Learned} {repositories : List String}

/-- What is known of a name makes a valid verdict rest on it. -/
theorem of_valid (hunit : settings.AllInUnit)
    (hwell : ∀ reason, .malformed reason ∉ symbols learned) {fetch : Fetch Sighting}
    (hfetch : fetch ∈ symbols learned) {sighting : Sighting}
    (hanswer : fetch.answer? = some sighting) (hknown : sighting.known = true)
    (hstatus : verdict.status = .valid)
    (hconfidence : verdict.confidence = settings.foundConfidence target.name.kind) :
    verdict.RestsOn settings target learned sighting.locations where
  inUnit := by
    rw [hconfidence]
    exact hunit.foundConfidence _
  not_invalid := by simp [hstatus]
  valid _ := ⟨fetch, hfetch, sighting, hanswer, hknown, hconfidence, rfl⟩
  notFound h := by simp [hstatus] at h
  malformed_iff := by simp [hwell, hstatus]
  error reason h := absurd h (hwell reason)
  uncertain h := by simp [hstatus] at h

/-- That a name is not known makes a verdict rest on it that says so. -/
theorem of_notFound (hunit : settings.AllInUnit) (hlow : settings.notFound ≤ 3 / 10)
    (hwell : ∀ reason, .malformed reason ∉ symbols learned) (hstatus : verdict.status = .notFound)
    (hconfidence : verdict.confidence = settings.notFound)
    (herror : verdict.details.get? "error" = none) :
    verdict.RestsOn settings target learned [] where
  inUnit := by
    rw [hconfidence]
    exact hunit.notFound
  not_invalid := by simp [hstatus]
  valid h := by simp [hstatus] at h
  notFound _ := ⟨hconfidence ▸ hlow, rfl⟩
  malformed_iff := by simp [hwell, Ordered.has, herror]
  error reason h := absurd h (hwell reason)
  uncertain h := by simp [hstatus] at h

/-- A malformed answer makes a verdict rest on it that tells why. -/
theorem of_malformed {reason : String} (hreason : .malformed reason ∈ symbols learned)
    (honly : ∀ other, .malformed other ∈ symbols learned → other = reason)
    (hstatus : verdict.status = .notFound) (hconfidence : verdict.confidence = 0)
    (herror : verdict.details.get? "error" = some (.str reason)) :
    verdict.RestsOn settings target learned [] where
  inUnit := by
    rw [hconfidence]
    norm_num [InUnit]
  not_invalid := by simp [hstatus]
  valid h := by simp [hstatus] at h
  notFound _ := by
    rw [hconfidence]
    norm_num
  malformed_iff := by
    have hhas : verdict.details.has "error" = true := by simp [Ordered.has, herror]
    exact ⟨fun _ => ⟨hstatus, hconfidence, hhas⟩, fun _ => ⟨reason, hreason⟩⟩
  error other h := by rw [herror, honly other h]
  uncertain h := by simp [hstatus] at h

/-- A doubt makes an uncertain verdict rest on it. -/
theorem of_uncertain (hwell : ∀ reason, .malformed reason ∉ symbols learned)
    (hunit : InUnit verdict.confidence) (hstatus : verdict.status = .uncertain)
    (hdoubts : verdict.Doubts settings target learned repositories) :
    verdict.RestsOn settings target learned repositories where
  inUnit := hunit
  not_invalid := by simp [hstatus]
  valid h := by simp [hstatus] at h
  notFound h := by simp [hstatus] at h
  malformed_iff := by simp [hwell, hstatus]
  error reason h := absurd h (hwell reason)
  uncertain _ := hdoubts

/-- If a verdict is valid, no answer that it rests on was malformed. -/
theorem well_of_valid (h : verdict.RestsOn settings target learned repositories)
    (hvalid : verdict.status = .valid) (reason : String) : .malformed reason ∉ symbols learned := by
  intro hmem
  have hstatus := (h.malformed_iff.mp ⟨reason, hmem⟩).1
  simp [hvalid] at hstatus

/-- What keeps status, confidence and fault of a verdict rests on the same. -/
theorem keeps (h : verdict.RestsOn settings target learned repositories)
    (hkeeps : Keeps verdict verdict') :
    verdict'.RestsOn settings target learned repositories := by
  obtain ⟨hstatus, hconfidence, herror⟩ := hkeeps
  have hhas : verdict'.details.has "error" = verdict.details.has "error" := by
    simp only [Ordered.has, herror]
  constructor
  · rw [hconfidence]
    exact h.inUnit
  · rw [hstatus]
    exact h.not_invalid
  · rw [hstatus, hconfidence]
    exact h.valid
  · rw [hstatus, hconfidence]
    exact h.notFound
  · rw [hstatus, hconfidence, hhas]
    exact h.malformed_iff
  · rw [herror]
    exact h.error
  · rw [hstatus]
    intro huncertain
    have hdoubts := h.uncertain huncertain
    unfold Doubts at hdoubts ⊢
    split at hdoubts
    · exact hdoubts
    · exact ⟨hdoubts.asked, hdoubts.missing, hconfidence.trans hdoubts.confidence,
        hdoubts.repositories⟩
    all_goals
      refine ⟨hdoubts.known, ?_⟩
      rw [hconfidence]
      exact hdoubts.refused

/-- What is said of a call to a name that is known rests on the signature, too. -/
theorem withSignature (h : verdict.RestsOn settings target learned repositories)
    (hunit : settings.AllInUnit) (hvalid : verdict.status = .valid)
    {told : Fetch (Option Signature)} (htold : told ∈ signatures learned)
    (hcall : ∀ verdict' : Verdict Rat,
      verdict'.DoubtsCall settings target.name.kind target.arguments learned repositories →
        verdict'.Doubts settings target learned repositories) :
    (GraphCheck.withSignature verdict told target.arguments).RestsOn settings target learned
      repositories := by
  rcases GraphCheck.keeps_or_weakens_withSignature verdict told target.arguments with
    hkeeps | ⟨judged, hrefuses, hweakens⟩
  · exact h.keeps hkeeps
  · obtain ⟨fetch, hfetch, sighting, hanswer, hknown, hfound, hlocations⟩ := h.valid hvalid
    obtain ⟨given, signature, _, _, _, hjudged⟩ := hrefuses.compared
    have hjudgedUnit : InUnit judged.confidence := by
      rw [hjudged]
      exact (Binding.inBand_checkArguments ..).inUnit
    have hconfidence : (GraphCheck.withSignature verdict told target.arguments).confidence =
        min (settings.foundConfidence target.name.kind) judged.confidence := by
      have hfoundUnit := hunit.foundConfidence target.name.kind
      rw [hweakens.confidence, hfound, Scalar.least_eq_min]
      exact Scalar.clampUnit_of_inUnit
        ⟨le_min hfoundUnit.1 hjudgedUnit.1, min_le_of_left_le hfoundUnit.2⟩
    refine of_uncertain (h.well_of_valid hvalid) ?_ hweakens.status (hcall _ ⟨?_, ?_⟩)
    · rw [hweakens.confidence]
      exact Scalar.inUnit_clampUnit _
    · exact ⟨fetch, hfetch, sighting, hanswer, hknown, hlocations⟩
    · exact ⟨told, htold, judged, hrefuses, hconfidence⟩

end RestsOn

end Verdict

namespace GraphCheck

open Inquiry (ComesTo)
open Learned (symbols signatures)

section Names

variable {settings : Settings Rat} (hunit : settings.AllInUnit) (hlow : settings.notFound ≤ 3 / 10)
  {target : Target} {learned : List Learned} {wording : Wording Rat} {fetch : Fetch Sighting}

include hunit

/-- What is said of a name that was looked up rests on the lookup that decides. -/
theorem restsOn_existence (hdecides : Decides fetch (symbols learned))
    (hfound : wording.found = settings.foundConfidence target.name.kind)
    (hmissing : isMissing fetch = true →
      (existence wording fetch).1.RestsOn settings target learned []) :
    (existence wording fetch).1.RestsOn settings target learned (existence wording fetch).2 := by
  have hanswered (sighting : Sighting) (hanswer : fetch.answer? = some sighting) :
      (existence wording fetch).1.RestsOn settings target learned (existence wording fetch).2 := by
    cases hknown : sighting.known with
    | true =>
      rw [existence_of_known wording hanswer hknown]
      refine .of_valid hunit (fun reason hmem => ?_) hdecides.mem hanswer hknown rfl ?_
      · rw [hdecides.eq_malformed hmem] at hanswer
        cases hanswer
      · simp [hfound, Scalar.clampUnit_of_inUnit (hunit.foundConfidence _)]
    | false =>
      have hmissing' : isMissing fetch = true := by
        cases fetch <;> cases hanswer <;> simp [isMissing, hknown]
      have hrepositories : (existence wording fetch).2 = [] := by
        rw [existence_of_missing wording hmissing']
      rw [hrepositories]
      exact hmissing hmissing'
  cases fetch with
  | cached sighting => exact hanswered sighting rfl
  | fresh sighting => exact hanswered sighting rfl
  | malformed reason =>
    refine .of_malformed hdecides.mem (fun other hmem => ?_) rfl ?_ rfl
    · cases hdecides.eq_malformed hmem
      rfl
    · have hzero : (0.0 : Rat) = 0 := by norm_num
      have hclamp := Scalar.clampUnit_of_inUnit (x := 0) (by norm_num [InUnit])
      simpa [existence, hzero] using hclamp

include hlow

/-- What is said of a name that counts as not found unless it is known rests on its lookup. -/
theorem restsOn_name (hlearned : symbols learned = [fetch])
    (hfound : wording.found = settings.foundConfidence target.name.kind)
    (hstatus : wording.missingStatus = .notFound) (hmissing : wording.missing = settings.notFound) :
    (existence wording fetch).1.RestsOn settings target learned (existence wording fetch).2 := by
  refine restsOn_existence hunit (hlearned ▸ decides_singleton fetch) hfound fun hnone => ?_
  rw [existence_of_missing wording hnone]
  refine .of_notFound hunit hlow (fun reason hmem => ?_) hstatus ?_ rfl
  · rw [hlearned, List.mem_singleton] at hmem
    rw [← hmem] at hnone
    simp [isMissing] at hnone
  · simp [hmissing, Scalar.clampUnit_of_inUnit hunit.notFound]

end Names

section Checks

variable {settings : Settings Rat} (hunit : settings.AllInUnit) (hlow : settings.notFound ≤ 3 / 10)
  (element : ElementRef) (kind : CheckKind) {learned : List Learned} {check : Check Rat}

/-- A check rests on what its verdict rests on. -/
theorem restsOn_checkOf {target : Target} {verdict : Verdict Rat} {repositories : List String}
    (h : verdict.RestsOn settings target learned repositories) (element : ElementRef)
    (kind : CheckKind) (path : String) (cached : Bool) :
    (checkOf element kind path verdict cached repositories).verdict.RestsOn settings target learned
      repositories :=
  h.keeps (keeps_withDetail verdict (by decide) _)

include hunit

/-- What is said of an access to a member rests on the lookups of its meanings. -/
theorem restsOn_checkAttribute (owner name : String) (ownerIsClass : Bool)
    (arguments : Option CallArguments)
    (h : (checkAttribute Inquiry.lookups settings element owner name ownerIsClass).ComesTo learned
      check) :
    check.verdict.RestsOn settings ⟨element, kind, .member owner name ownerIsClass, arguments⟩
      learned check.repositories := by
  unfold checkAttribute at h
  obtain ⟨_, first, _, rfl, hfirst, hrest⟩ := h.of_bind
  obtain rfl := ComesTo.of_ask (.sighting .member [owner, name]) hfirst
  obtain ⟨meanings, resolved, _, rfl, hmeanings, hrest⟩ := hrest.of_bind
  obtain ⟨rfl, rfl⟩ := hrest.of_pure
  obtain ⟨hdecides, hasked⟩ := learned_resolveFallbacks hmeanings
  rw [List.append_nil]
  refine restsOn_checkOf (restsOn_existence hunit hdecides rfl fun hmissing => ?_) ..
  have hall : ∀ fetch ∈ first :: symbols meanings, isMissing fetch = true := by
    intro fetch hfetch
    rcases hdecides.missing fetch hfetch with rfl | hnone
    · exact hmissing
    · exact hnone
  rw [existence_of_missing _ hmissing]
  refine .of_uncertain (fun reason hmem => ?_) (Scalar.inUnit_clampUnit _) rfl ⟨?_, hall, ?_, rfl⟩
  · simpa [isMissing] using hall _ hmem
  · rw [List.map_append, hasked hmissing]
    rfl
  · exact Scalar.clampUnit_of_inUnit hunit.attributeNotFound

include hlow

/-- What is said of an import rests on the lookup of its module. -/
theorem restsOn_checkImport (path : String) (arguments : Option CallArguments)
    (h : (checkImport Inquiry.lookups settings element path).ComesTo learned check) :
    check.verdict.RestsOn settings ⟨element, kind, .ofModule path, arguments⟩ learned
      check.repositories := by
  unfold checkImport at h
  obtain ⟨_, fetch, _, rfl, hlookup, hrest⟩ := h.of_bind
  obtain rfl := ComesTo.of_ask (.sighting .ofModule [path]) hlookup
  obtain ⟨rfl, rfl⟩ := hrest.of_pure
  exact restsOn_checkOf (restsOn_name hunit hlow rfl rfl rfl rfl) ..

/-- What is said of a call rests on the lookup of its name and, if that is known, on that of its
signature. -/
theorem restsOn_call (target : Target) {lookup : Inquiry (Fetch (Option Signature))}
    (hlookup : ∀ {after told}, lookup.ComesTo after told →
      symbols after = [] ∧ signatures after = [told])
    {wording : Wording Rat} {fetch : Fetch Sighting} {missing : Verdict Rat}
    {path : String} {cached : Bool}
    (hfound : wording.found = settings.foundConfidence target.name.kind)
    (hstatus : wording.missingStatus = .notFound) (hmissing : wording.missing = settings.notFound)
    (hkeeps : Keeps (existence wording fetch).1 missing)
    (hcall : ∀ {learned repositories} (verdict : Verdict Rat),
      verdict.DoubtsCall settings target.name.kind target.arguments learned repositories →
        verdict.Doubts settings target learned repositories)
    {symbol : SymbolKind} {qualifiers : List String}
    (h : (do
      if (existence wording fetch).1.status = .valid then
        let signature ← lookup
        return checkOf element kind path
          (withSignature (existence wording fetch).1 signature target.arguments)
          (cached && signature.isCached) (existence wording fetch).2
      else return checkOf element kind path missing cached (existence wording fetch).2 :
        Inquiry (Check Rat)).ComesTo learned check) :
    check.verdict.RestsOn settings target (⟨.sighting symbol qualifiers, fetch⟩ :: learned)
      check.repositories := by
  split at h
  · rename_i hvalid
    obtain ⟨before, told, after, rfl, htold, hrest⟩ := h.of_bind
    obtain ⟨hsymbols, hsignatures⟩ := hlookup htold
    obtain ⟨rfl, rfl⟩ := hrest.of_pure
    have hlearned : symbols (⟨.sighting symbol qualifiers, fetch⟩ :: (before ++ [])) = [fetch] := by
      rw [List.append_nil, Learned.symbols_sighting, hsymbols]
    have hname := restsOn_name hunit hlow hlearned hfound hstatus hmissing
    refine restsOn_checkOf (hname.withSignature hunit hvalid ?_ (hcall ·)) ..
    rw [List.append_nil, Learned.signatures_sighting, hsignatures]
    exact List.mem_singleton_self told
  · obtain ⟨rfl, rfl⟩ := h.of_pure
    exact restsOn_checkOf ((restsOn_name hunit hlow rfl hfound hstatus hmissing).keeps hkeeps) ..

/-- What is said of the making of an object rests on the lookups of its class and of how objects of
it are made. -/
theorem restsOn_checkInstantiation (path : String) (arguments : Option CallArguments)
    (h : (checkInstantiation Inquiry.lookups settings element path arguments).ComesTo learned
      check) :
    check.verdict.RestsOn settings ⟨element, kind, .ofClass path, arguments⟩ learned
      check.repositories := by
  unfold checkInstantiation at h
  obtain ⟨_, fetch, _, rfl, hlookup, hrest⟩ := h.of_bind
  obtain rfl := ComesTo.of_ask (.sighting .ofClass [path]) hlookup
  exact restsOn_call hunit hlow element .instantiation ⟨element, kind, .ofClass path, arguments⟩
    learned_methodSignature rfl rfl rfl ⟨rfl, rfl, rfl⟩ (fun _ hdoubts => hdoubts) hrest

/-- What is said of a call of a method rests on the lookups of the method and its signature. -/
theorem restsOn_checkMethodCall (owner method : String) (arguments : Option CallArguments)
    (h : (checkMethodCall Inquiry.lookups settings element owner method arguments).ComesTo learned
      check) :
    check.verdict.RestsOn settings ⟨element, kind, .method owner method, arguments⟩ learned
      check.repositories := by
  unfold checkMethodCall at h
  obtain ⟨_, fetch, _, rfl, hlookup, hrest⟩ := h.of_bind
  obtain rfl := ComesTo.of_ask (.sighting .method [owner, method]) hlookup
  exact restsOn_call hunit hlow element .methodCall ⟨element, kind, .method owner method, arguments⟩
    learned_methodSignature rfl rfl rfl (keeps_withSuggestion ..) (fun _ hdoubts => hdoubts) hrest

/-- What is said of a call of a function rests on the lookups of the function and its signature. -/
theorem restsOn_checkFunctionCall (path name : String) (arguments : Option CallArguments)
    (h : (checkFunctionCall Inquiry.lookups settings element path name arguments).ComesTo learned
      check) :
    check.verdict.RestsOn settings ⟨element, kind, .function path name, arguments⟩ learned
      check.repositories := by
  unfold checkFunctionCall at h
  obtain ⟨_, fetch, _, rfl, hlookup, hrest⟩ := h.of_bind
  obtain rfl := ComesTo.of_ask (.sighting .function [path, name]) hlookup
  exact restsOn_call hunit hlow element .functionCall
    ⟨element, kind, .function path name, arguments⟩ learned_functionSignature rfl rfl rfl
    ⟨rfl, rfl, rfl⟩ (fun _ hdoubts => hdoubts) hrest

/-- What is said of a target rests on what was learned of it. -/
theorem restsOn_checkTarget (target : Target)
    (h : (checkTarget Inquiry.lookups settings target).ComesTo learned check) :
    check.verdict.RestsOn settings target learned check.repositories := by
  obtain ⟨element, kind, name, arguments⟩ := target
  cases name with
  | ofModule path => exact restsOn_checkImport hunit hlow element kind path arguments h
  | ofClass path => exact restsOn_checkInstantiation hunit hlow element kind path arguments h
  | method owner name =>
    exact restsOn_checkMethodCall hunit hlow element kind owner name arguments h
  | function path name =>
    exact restsOn_checkFunctionCall hunit hlow element kind path name arguments h
  | member owner name ownerIsClass =>
    exact restsOn_checkAttribute hunit element kind owner name ownerIsClass arguments h

end Checks

/-- Whatever texts the settings are read from, whatever the graph answers and whatever the cache
holds, the verdict on a target that was checked rests on what was learned on the run: a valid name
was found and has the confidence of its kind; one that counts as not found has a low confidence,
which is zero with the fault told if and only if a symbol came back malformed; and what is uncertain
is doubted for its arguments or, as a member, in all that it may mean. -/
theorem verdict_restsOn_learned (lookup : String → Option String) {graph : KnowledgeGraph σ}
    (target : Target) {desk after : Desk (Cached σ)} {check : Check Rat}
    (hrun : (checkTarget (cachedLookups graph) (.ofLookup lookup) target).start desk =
      (.ok check, after)) :
    check.kind = target.name.kind ∧
      check.verdict.RestsOn (.ofLookup lookup) target
        ((checkTarget Inquiry.lookups (.ofLookup lookup : Settings Rat) target).learned graph desk)
        check.repositories := by
  have hinquiry :
      ((checkTarget Inquiry.lookups (.ofLookup lookup : Settings Rat) target).run
        (cachedLookups graph)).start desk = (.ok check, after) := by
    rw [run_checkTarget, hrun]
  obtain ⟨_, hcheck⟩ := (yields_checkTarget (.ofLookup lookup) target).of_start_run hinquiry
  refine ⟨hcheck.kind, ?_⟩
  exact restsOn_checkTarget (Settings.allInUnit_ofLookup lookup)
    (Settings.notFound_ofLookup_le lookup) target (.of_start_run hinquiry)

/-- A graph that knows one function of a module, and that it takes one argument. -/
def oneFunction : KnowledgeGraph Unit where
  findSymbol
    | .function, ["numpy", "array"], state => ⟨.ok (.found ["numpy"]), state, false⟩
    | _, _, state => ⟨.ok .missing, state, false⟩
  findMethodSignature _ _ state := ⟨.ok none, state, false⟩
  findFunctionSignature _ _ state :=
    ⟨.ok (some ⟨[⟨"object", none, false, .positional⟩], none⟩), state, false⟩
  close := id

/-- Texts that set two confidences, one of them out of range. -/
def lowTexts : String → Option String
  | "GROUNDCHECK_MEMBER_FOUND_CONFIDENCE" => some "0.65"
  | "GROUNDCHECK_NOT_FOUND_CONFIDENCE" => some "7"
  | _ => none

/-- A call of the function with two arguments. -/
def arrayCall : Target :=
  ⟨⟨1, .methodCall, "np.array", 2⟩, .functionCall, .function "numpy" "array",
    some ⟨[.list, .int], [], false⟩⟩

/-- What comes of checking the call. -/
def arrayCallRun : Except Problem (Check Rat) × Desk (Cached Unit) :=
  (checkTarget (cachedLookups oneFunction) (.ofLookup lowTexts) arrayCall).start
    ⟨⟨.empty, ()⟩, false⟩

/-- A call with an argument too many is uncertain, and rests on the function and its signature. -/
theorem verdict_restsOn_learned_arrayCall :
    ∃ check after, arrayCallRun = (.ok check, after) ∧
      check.verdict.status = .uncertain ∧ check.verdict.confidence = 3 / 10 ∧
      check.verdict.RestsOn (.ofLookup lowTexts) arrayCall
        ((checkTarget Inquiry.lookups (.ofLookup lowTexts : Settings Rat) arrayCall).learned
          oneFunction ⟨⟨.empty, ()⟩, false⟩) check.repositories := by
  have hverdict : (arrayCallRun.1.toOption.map fun check =>
      (check.verdict.status, check.verdict.confidence)) = some (.uncertain, 3 / 10) := by
    decide +kernel
  cases hrun : arrayCallRun with
  | mk outcome after =>
    rw [hrun] at hverdict
    cases outcome with
    | error problem => simp [Except.toOption] at hverdict
    | ok check =>
      simp only [Except.toOption, Option.map_some, Option.some.injEq, Prod.mk.injEq] at hverdict
      exact ⟨check, after, rfl, hverdict.1, hverdict.2,
        (verdict_restsOn_learned lowTexts arrayCall hrun).2⟩

end GraphCheck

end UsageAudit
