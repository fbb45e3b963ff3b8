import UsageAudit.Proofs.CacheTransparency
import UsageAudit.Proofs.CrewOutcomes
import UsageAudit.Proofs.OneByOne

/-!
# Crews with and without the cache

The workers of a crew share one cache. On a graph whose answers never change, what one of them keeps
is what any other would be answered, so a crew comes to the checks that come of asking directly. Only
which of several problems is reported first depends on how the workers follow each other. All this
needs that no two questions of the past and of the script share a name in the cache.
-/

namespace UsageAudit

variable {α β σ τ : Type}

namespace Cache.AgreesWith

variable {cache : Cache} {fixed : FixedGraph} {question : Question}

/-- The cache holds the fixed answer to a plain question or none. -/
theorem held_or_absent (h : cache.AgreesWith fixed) (hplain : question.Plain) :
    (∃ answer, cache.entries.get? question.key = some (question.entry answer) ∧
      fixed.answer question = .ok answer) ∨ cache.entries.get? question.key = none := by
  cases hget : cache.entries.get? question.key with
  | none => exact Or.inr rfl
  | some entry =>
    obtain ⟨answer, rfl, hanswer⟩ := h.truthfulOn hplain entry hget
    exact Or.inl ⟨answer, rfl, hanswer⟩

/-- Looking for the answer to a plain question leaves a cache that agrees, and what is found is the
fixed answer. -/
theorem after_read (h : cache.AgreesWith fixed) (hplain : question.Plain) :
    (question.read cache).2.AgreesWith fixed ∧
      ∀ answer, (question.read cache).1 = some answer → fixed.answer question = .ok answer := by
  rcases h.held_or_absent hplain with ⟨answer, hget, hanswer⟩ | hget
  · rw [Question.read_of_held hget]
    refine ⟨h, ?_⟩
    rintro _ ⟨⟩
    exact hanswer
  · rw [Question.read_of_absent hget]
    exact ⟨h, fun answer hread => by cases hread⟩

/-- Keeping the fixed answer to a plain question leaves a cache that agrees, and gives that answer. -/
theorem after_keep (h : cache.AgreesWith fixed) (hplain : question.Plain)
    {answer : question.Answer} (hanswer : fixed.answer question = .ok answer) :
    (question.keep answer cache).2.AgreesWith fixed ∧ (question.keep answer cache).1 = answer := by
  rcases h.held_or_absent hplain with ⟨held, hget, hheld⟩ | hget
  · rw [Question.keep_of_held answer hget]
    exact ⟨h, Except.ok.inj (hheld.symm.trans hanswer)⟩
  · rw [Question.keep_of_absent answer hget]
    refine ⟨fun key entry hmem => ?_, rfl⟩
    rcases Ordered.mem_of_mem_put hmem with hmem | heq
    · exact h key entry hmem
    · cases heq
      exact ⟨question, answer, hplain, rfl, rfl, hanswer⟩

end Cache.AgreesWith

/-- Whether an outcome agrees with another one, unless the request was cancelled. -/
def AgreesUnlessCancelled {γ : Type} (related : β → γ → Prop) (direct : Except Problem γ)
    (log : Log) (outcome : Except Problem β) : Prop :=
  log.cancelled = true ∨ Agree related outcome direct

/-- What agreed goes on to agree. -/
theorem lasting_agreesUnlessCancelled {γ : Type} (related : β → γ → Prop)
    (direct : Except Problem γ) : Lasting (AgreesUnlessCancelled related direct) where
  later hlog h := h.imp_left hlog.fired
  stopped hcancelled := Or.inl hcancelled

namespace Task

/-- An inquiry that is carried out step by step agrees with one that asks directly, whatever happens
to the cache in between, as long as it goes on to agree with the graph. -/
theorem meets_agree {γ : Type} {graph : KnowledgeGraph σ} {fixed : FixedGraph}
    (hgraph : graph.AnswersAs fixed) {related : β → γ → Prop} {inquiry : Inquiry β}
    {inquiry' : Inquiry γ} (hmatched : Inquiry.Matched Question.Plain related inquiry inquiry')
    (log : Log) :
    (inquiry.run (lookups (τ := τ) graph)).Meets
      (fun auditor => auditor.cache.AgreesWith fixed)
      (AgreesUnlessCancelled related (inquiry'.run (directLookups fixed))) log := by
  induction hmatched generalizing log with
  | done value value' hvalue => exact Or.inr hvalue
  | ask question next next' hplain _ ih =>
    rw [Inquiry.run, directLookups_ask]
    refine meets_run_ask (meets_lookup ?_ ?_)
    · intro auditor hauditor
      obtain ⟨hafter, hread⟩ := Cache.AgreesWith.after_read hauditor hplain
      refine ⟨hafter, fun answer hfound => ?_⟩
      rw [hread answer hfound]
      exact ih (.cached answer) (.fresh answer) rfl log
    · intro auditor hauditor
      refine ⟨hauditor, ?_⟩
      have hanswers : (graph.onAuditor question auditor).answer = fixed.answer question :=
        hgraph question auditor.graph
      rw [hanswers]
      rcases hanswer : fixed.answer question with (reason | reason) | answer
      · exact Or.inr rfl
      · exact ih (.malformed reason) (.malformed reason) rfl _
      · intro auditor hauditor
        obtain ⟨hafter, hkept⟩ := Cache.AgreesWith.after_keep hauditor hplain hanswer
        refine ⟨hafter, ?_⟩
        rw [hkept]
        exact ih (.fresh answer) (.fresh answer) rfl _

/-- Grounding a usage leaves the cache as it is. -/
theorem meets_ground [Scalar α] (index : ExampleIndex α τ) (settings : Settings α)
    (element : ElementRef) (query : String) (good : Cache → Prop) (log : Log) :
    (ground (σ := σ) index settings element query).Meets (fun auditor => good auditor.cache)
      (fun _ _ => True) log := by
  intro auditor hauditor
  refine ⟨hauditor, ?_⟩
  dsimp only
  rcases (index.onAuditor settings query auditor).answer with (reason | reason) | hits <;> trivial

end Task

/-- Values that agree with what each member of a row comes to directly agree with what the row comes
to. -/
theorem exists_mapM_of_agree {ι γ : Type} {related : β → γ → Prop} {direct : ι → Except Problem γ}
    {members : List ι} {values : List β}
    (h : List.Forall₂ (fun member value => Agree related (.ok value) (direct member)) members
      values) :
    ∃ values', members.mapM direct = .ok values' ∧ List.Forall₂ related values values' := by
  induction h with
  | nil => exact ⟨[], rfl, .nil⟩
  | @cons member value members values hmember _ ih =>
    obtain ⟨values', hvalues, hrelated⟩ := ih
    cases hdirect : direct member with
    | error problem =>
      rw [hdirect] at hmember
      exact hmember.elim
    | ok value' =>
      rw [hdirect] at hmember
      refine ⟨value' :: values', ?_, .cons hmember hrelated⟩
      rw [List.mapM_cons, hdirect, hvalues]
      rfl

section Requests

variable [Scalar α]

/-- What is left of an auditor after an operation on its cache. -/
def Auditor.afterOperation (graph : KnowledgeGraph σ) (settings : Settings α)
    (auditor : Auditor σ τ) (operation : Operation) : Auditor σ τ :=
  let state := operation.run graph settings ⟨auditor.cache, auditor.graph⟩
  { auditor with cache := state.cache, graph := state.graph }

/-- What comes of a script when its targets are checked one after the other. -/
def Auditor.checked (graph : KnowledgeGraph σ) (settings : Settings α) (analysis : Analysis)
    (auditor : Auditor σ τ) : Except Problem (GraphOutcome α) × Desk (Cached σ) :=
  (GraphCheck.checkScript (cachedLookups graph) settings analysis).start
    ⟨⟨auditor.cache, auditor.graph⟩, false⟩

variable (α) in
/-- The auditors whose caches come of plain scripts and plain operations, on a given graph. The crews
of a request may have got anywhere. -/
inductive Auditor.Served (graph : KnowledgeGraph σ) : Auditor σ τ → Prop where
  | fresh (state : σ) (examples : τ) : Served graph (.fresh state examples)
  | operation (settings : Settings α) (auditor : Auditor σ τ) (operation : Operation)
      (served : Served graph auditor) (plain : operation.Plain) :
      Served graph (auditor.afterOperation graph settings operation)
  | request (settings : Settings α) (index? : Option (ExampleIndex α τ)) (auditor : Auditor σ τ)
      (analysis : Analysis) (schedule : List Move) (served : Served graph auditor)
      (plain : ∀ element ∈ analysis.elements, element.Plain) :
      Served graph ((Engagement.ofAnalysis ⟨graph, index?⟩ settings analysis auditor).moves settings
        schedule).place.state

/-- Whether what a crew came to is what comes of asking directly: the same checks in the same order,
but for where the answers came from, or the problem of one of the targets. -/
def GraphCheck.CrewAgrees (fixed : FixedGraph) (settings : Settings α) (plan : Plan) :
    Except Problem (GraphOutcome α) → Prop
  | .ok outcome =>
    ∃ direct, checkPlan (directLookups fixed) settings plan = .ok direct ∧
      outcome.SameButOrigin direct
  | .error problem =>
    ∃ target ∈ plan.targets, checkTarget (directLookups fixed) settings target = .error problem

variable {graph : KnowledgeGraph σ} {fixed : FixedGraph} (hgraph : graph.AnswersAs fixed)
include hgraph

/-- A request for a plain script leaves a cache that agrees, wherever its crews have got, and each
check agrees with one that asks directly. -/
theorem Engagement.meets_agree (settings : Settings α) (index? : Option (ExampleIndex α τ))
    {analysis : Analysis} (hanalysis : ∀ element ∈ analysis.elements, element.Plain)
    {auditor : Auditor σ τ} (hauditor : auditor.cache.AgreesWith fixed) (schedule : List Move) :
    ((ofAnalysis ⟨graph, index?⟩ settings analysis auditor).moves settings schedule).Meets
      (fun auditor => auditor.cache.AgreesWith fixed)
      (fun target => AgreesUnlessCancelled Check.SameButOrigin
        (GraphCheck.checkTarget (directLookups fixed) settings target))
      (fun _ _ _ => True) analysis.plan.targets := by
  have hground (index : ExampleIndex α τ) (job : ElementRef × String) :=
    Task.meets_ground (σ := σ) index settings job.1 job.2 (fun cache => cache.AgreesWith fixed)
      ⟨false, []⟩
  refine meets_moves settings (fun target => lasting_agreesUnlessCancelled _ _)
    (fun _ => ⟨fun _ h => h, fun _ => trivial⟩) hauditor (fun target hmem => ?_) hground schedule
  have hplain := Plan.plain_of_mem_ofElements hanalysis hmem
  have hagree := Task.meets_agree (τ := τ) hgraph (GraphCheck.matched_checkTarget settings hplain)
    ⟨false, []⟩
  rwa [GraphCheck.run_checkTarget, GraphCheck.run_checkTarget] at hagree

/-- The cache of an auditor that served plain requests agrees with the graph. -/
theorem Auditor.Served.agreesWith {auditor : Auditor σ τ} (h : auditor.Served α graph) :
    auditor.cache.AgreesWith fixed := by
  induction h with
  | fresh state examples => exact .empty fixed
  | operation settings auditor operation _ hplain ih =>
    have hstate : (⟨auditor.cache, auditor.graph⟩ : Cached σ).cache.AgreesWith fixed := ih
    exact Operation.agreesWith_run settings hgraph hplain hstate
  | request settings index? auditor analysis schedule _ hplain ih =>
    exact (Engagement.meets_agree hgraph settings index? hplain ih schedule).state

/-- What the crew of a request for a plain script has come to, if the request was not cancelled, agrees
with asking directly. -/
theorem Engagement.crewAgrees_moves (settings : Settings α) (index? : Option (ExampleIndex α τ))
    {analysis : Analysis} (hanalysis : ∀ element ∈ analysis.elements, element.Plain)
    {auditor : Auditor σ τ} (hauditor : auditor.cache.AgreesWith fixed) (schedule : List Move) :
    let engagement :=
      (ofAnalysis ⟨graph, index?⟩ settings analysis auditor).moves settings schedule
    engagement.place.cancelled = false →
      ∀ outcome, GraphCheck.outcome? analysis.plan engagement.graph = some outcome →
        GraphCheck.CrewAgrees fixed settings analysis.plan outcome := by
  intro engagement hlive outcome houtcome
  have hmeets := meets_agree hgraph settings index? hanalysis hauditor schedule
  obtain ⟨ended, hended, rfl⟩ := Option.map_eq_some_iff.mp houtcome
  have hnot : ¬engagement.place.cancelled = true := by simp [hlive]
  cases ended with
  | ok checks =>
    have hchecks := (hmeets.graph.values hended).imp fun _ _ h => h.resolve_left hnot
    obtain ⟨direct, hdirect, hsame⟩ := exists_mapM_of_agree hchecks
    refine ⟨⟨direct, analysis.plan.skipped⟩, ?_, hsame, rfl⟩
    rw [GraphCheck.checkPlan, hdirect]
    rfl
  | error problem =>
    obtain ⟨target, hmem, hagrees⟩ := hmeets.graph.problem hended
    refine ⟨target, hmem, ?_⟩
    have hagree := hagrees.resolve_left hnot
    cases hdirect : GraphCheck.checkTarget (directLookups fixed) settings target with
    | ok check =>
      rw [hdirect] at hagree
      exact hagree.elim
    | error problem' =>
      rw [hdirect] at hagree
      exact congrArg Except.error hagree.symm

/-- On a graph with fixed answers, whatever plain scripts and plain operations there were before, a plain
script is checked through the cache with the same outcome as by asking the graph directly: the same
problem, or the same checks in the same order, but for the detail that says whether the answers were
in the cache. A crew of several workers comes to those checks, too, or to a problem of one of the
targets, under any schedule of a request, and it can come to its end from wherever it has got. The
request must not be cancelled on the way. -/
theorem Auditor.cache_transparent (settings : Settings α) (index? : Option (ExampleIndex α τ))
    {auditor : Auditor σ τ} (hserved : auditor.Served α graph) {analysis : Analysis}
    (hanalysis : ∀ element ∈ analysis.elements, element.Plain) :
    ((auditor.checked graph settings analysis).2.cancelled = false →
      Agree GraphOutcome.SameButOrigin (auditor.checked graph settings analysis).1
        (GraphCheck.checkScript (directLookups fixed) settings analysis)) ∧
    ∀ schedule,
      let engagement :=
        (Engagement.ofAnalysis ⟨graph, index?⟩ settings analysis auditor).moves settings schedule
      (engagement.place.cancelled = false →
        ∀ outcome, GraphCheck.outcome? analysis.plan engagement.graph = some outcome →
          GraphCheck.CrewAgrees fixed settings analysis.plan outcome) ∧
      ∃ further, (GraphCheck.outcome? analysis.plan
        (engagement.moves settings further).graph).isSome = true := by
  have hcache := hserved.agreesWith hgraph
  refine ⟨?_, fun schedule => ⟨?_, ?_⟩⟩
  · have hagree := (GraphCheck.matched_checkScript settings hanalysis).agree hgraph
      ⟨⟨auditor.cache, auditor.graph⟩, false⟩ hcache
    simpa only [checked, GraphCheck.run_checkScript] using hagree
  · exact Engagement.crewAgrees_moves hgraph settings index? hanalysis hcache schedule
  · generalize (Engagement.ofAnalysis ⟨graph, index?⟩ settings analysis auditor).moves settings
      schedule = engagement
    obtain ⟨further, hover⟩ :=
      engagement.graph.exists_moves_isOver settings.crewSize_pos engagement.place
    refine ⟨further.map .graph, ?_⟩
    rw [Engagement.moves_graph]
    simp [GraphCheck.outcome?, Crew.outcome?, hover]

end Requests

namespace Auditor

/-- An auditor that has checked a script, then a member whose answer cannot be had, and has had one
answer dropped. -/
def arrayAuditor : Auditor Unit Unit :=
  [Operation.checkScript Operation.arrayScript false,
    .check ⟨⟨0, .attributeAccess, "np.size", 1⟩, .attributeAccess, .member "numpy" "size" false,
      none⟩ false,
    .invalidate (.symbol .function "numpy.array")].foldl
    (afterOperation Operation.arrays.steady (Settings.standard : Settings Rat)) (fresh () ())

/-- A request for the same script, after some moves. -/
def arrayEngagement (schedule : List Move) : Engagement Rat Unit Unit :=
  (Engagement.ofAnalysis ⟨Operation.arrays.steady, none⟩ .standard Operation.arrayScript
    arrayAuditor).moves .standard schedule

/-- Three workers take their steps in turn. -/
def turns (rounds : Nat) : List Move :=
  (List.replicate rounds [.graph 0, .graph 1, .graph 2]).flatten

/-- Three workers who share a cache in which some answers are left come to the checks that come of
asking directly, and so does one worker. -/
theorem cache_transparent_arrayScript :
    Agree GraphOutcome.SameButOrigin
        (arrayAuditor.checked Operation.arrays.steady (.standard : Settings Rat)
          Operation.arrayScript).1
        (GraphCheck.checkScript (directLookups Operation.arrays) .standard Operation.arrayScript) ∧
      ∃ outcome, GraphCheck.outcome? Operation.arrayScript.plan (arrayEngagement (turns 11)).graph =
          some outcome ∧
        GraphCheck.CrewAgrees Operation.arrays .standard Operation.arrayScript.plan outcome := by
  have hanalysis : ∀ element ∈ Operation.arrayScript.elements, element.Plain := by
    simp [Operation.arrayScript, Element.Plain]
  have hserved : arrayAuditor.Served Rat Operation.arrays.steady := by
    simp only [arrayAuditor, List.foldl_cons, List.foldl_nil]
    refine .operation _ _ _ (.operation _ _ _ (.operation _ _ _ (.fresh () ()) hanalysis) ?_) trivial
    simp [Operation.Plain, TargetName.Plain]
  have hlive : (arrayAuditor.checked Operation.arrays.steady (.standard : Settings Rat)
      Operation.arrayScript).2.cancelled = false := by
    decide +kernel
  have hcrewLive : (arrayEngagement (turns 11)).place.cancelled = false := by decide +kernel
  have hended : (GraphCheck.outcome? Operation.arrayScript.plan
      (arrayEngagement (turns 11)).graph).isSome = true := by
    decide +kernel
  obtain ⟨hsequential, hcrews⟩ := cache_transparent Operation.arrays.steady_answersAs
    (Settings.standard : Settings Rat) none hserved hanalysis
  obtain ⟨outcome, houtcome⟩ := Option.isSome_iff_exists.mp hended
  rw [arrayEngagement] at hcrewLive houtcome ⊢
  generalize arrayAuditor.checked Operation.arrays.steady (.standard : Settings Rat)
    Operation.arrayScript = checked at hsequential hlive ⊢
  exact ⟨hsequential hlive, outcome, houtcome, (hcrews (turns 11)).1 hcrewLive outcome houtcome⟩

/-- A graph that knows a member by a name with a dot in its last part. -/
def dottedMembers : FixedGraph where
  findSymbol
    | .ofModule, ["a.b"] | .member, ["a", "b.c"] => .ok (.found ["acme/lib"])
    | _, _ => .ok .missing
  findMethodSignature _ _ := .ok none
  findFunctionSignature _ _ := .ok none

/-- A script that accesses a member of a module whose name has a dot in it. -/
def aliasScript : Analysis where
  metadata := ⟨"alias.py", 2, 8, "", none⟩
  elements := [.ofImport ⟨"a.b", none, some "x", 1⟩, .attributeAccess ⟨"x", "c", 2⟩]

/-- The check of a member whose name has a dot in it. -/
def dottedCheck : Operation :=
  .check ⟨⟨0, .ofImport, "e", 1⟩, .attributeAccess, .member "a" "b.c" false, none⟩ false

/-- What comes of the script after that check. -/
def aliasOutcome : Except Problem (GraphOutcome Rat) × Desk (Cached Unit) :=
  ((fresh () ()).afterOperation (τ := Unit) dottedMembers.steady (.standard : Settings Rat)
    dottedCheck).checked dottedMembers.steady .standard aliasScript

/-- A graph that cannot be reached for any module. -/
def lostModules : FixedGraph where
  findSymbol _ qualifiers := .error (.unavailable (qualifiedName qualifiers))
  findMethodSignature _ _ := .ok none
  findFunctionSignature _ _ := .ok none

/-- A script with two imports. -/
def twoImports : Analysis where
  metadata := ⟨"imports.py", 2, 8, "", none⟩
  elements := [.ofImport ⟨"first", none, none, 1⟩, .ofImport ⟨"second", none, none, 2⟩]

/-- Two workers begin together, and the second one is done first. -/
def secondFirst : List Move :=
  .graph 0 :: List.replicate 6 (.graph 1) ++ List.replicate 5 (.graph 0)

/-- After a check of a member with a dot in its name, a script without such names is not checked as by
asking directly: the graph says of a member that it does not know it, and the check says that it does.
And of two problems, a crew may report the one that is not the first of the script. -/
theorem dotted_check_not_transparent :
    ((∀ element ∈ aliasScript.elements, element.Plain) ∧ aliasOutcome.2.cancelled = false ∧
      (aliasOutcome.1.map fun outcome => outcome.checks.map fun check => check.verdict.status) =
        .ok [.valid, .valid] ∧
      ((GraphCheck.checkScript (directLookups dottedMembers) Settings.standard aliasScript :
        Except Problem (GraphOutcome Rat)).map fun outcome =>
          outcome.checks.map fun check => check.verdict.status) = .ok [.valid, .uncertain]) ∧
    (GraphCheck.outcome? twoImports.plan ((Engagement.ofAnalysis (τ := Unit)
        ⟨lostModules.steady, none⟩ (Settings.standard : Settings Rat) twoImports
        (fresh () ())).moves .standard secondFirst).graph).map problem? =
      some (some (.unavailable "second")) ∧
    problem? (GraphCheck.checkScript (directLookups lostModules) (Settings.standard : Settings Rat)
      twoImports) = some (.unavailable "first") := by
  have hplain : ∀ element ∈ aliasScript.elements, element.Plain := by
    simp [aliasScript, Element.Plain]
  refine ⟨⟨hplain, ?_, ?_, ?_⟩, ?_, ?_⟩ <;> decide +kernel

end Auditor

end UsageAudit
