import UsageAudit.Proofs.Operation
import UsageAudit.Proofs.Plan
import UsageAudit.Proofs.Provenance

/-!
# Checking with and without the cache

A graph whose answers never change is checked against with the same outcome whether answers are kept
or not. An answer is kept under the name that was asked for with its parts joined by dots, while the
graph is asked for the parts; the cache is therefore right only as long as no two questions are
joined to the same name. This is so if the last part of a joined name never has a dot in it, as in
any script.
-/

namespace UsageAudit

variable {α σ : Type}

namespace Question

/-- Whether the question is of a form in which it can be told from its joined name: only its last
part must not have a dot in it. -/
def Plain : Question → Prop
  | .sighting .ofModule [_] | .sighting .ofClass [_] => True
  | .sighting .method [_, name] | .sighting .function [_, name] | .sighting .member [_, name] =>
    '.' ∉ name.toList
  | .sighting .. => False
  | .methodSignature .. | .functionSignature .. => True

/-- Two names of two parts agree only in both parts. -/
theorem qualifiedName_pair_inj {owner name owner' name' : String} (h : '.' ∉ name.toList)
    (h' : '.' ∉ name'.toList) (heq : qualifiedName [owner, name] = qualifiedName [owner', name']) :
    owner = owner' ∧ name = name' := by
  have hchars (owner name : String) :
      (qualifiedName [owner, name]).toList = owner.toList ++ '.' :: name.toList := by
    simp [qualifiedName]
  have hsplit := congrArg String.toList heq
  rw [hchars, hchars] at hsplit
  obtain ⟨howner, hname⟩ := Dotted.append_dot_inj h h' hsplit
  exact ⟨String.toList_inj.mp howner, String.toList_inj.mp hname⟩

/-- Plain questions whose answers are kept under the same name are the same. -/
theorem Plain.eq_of_key_eq {question question' : Question} (h : question.Plain)
    (h' : question'.Plain) (heq : question.key = question'.key) : question = question' := by
  unfold Plain at h h'
  split at h <;> split at h' <;> simp_all [key]
  all_goals first
    | exact heq
    | exact qualifiedName_pair_inj h h' heq

end Question

/-- Whether the name of a target has no dot in its last part. Modules and classes are named as a
whole. -/
def TargetName.Plain : TargetName → Prop
  | .ofModule _ | .ofClass _ => True
  | .method _ name | .function _ name | .member _ name _ => '.' ∉ name.toList

/-- Whether the members that a script calls or accesses have no dots in their names. -/
def Element.Plain : Element → Prop
  | .methodCall e => '.' ∉ e.method.toList
  | .attributeAccess e => '.' ∉ e.member.toList
  | _ => True

/-- Whether an operation checks only what has no dot in its last part. -/
def Operation.Plain : Operation → Prop
  | .check target _ => target.name.Plain
  | .checkScript analysis _ => ∀ element ∈ analysis.elements, element.Plain
  | .invalidate _ | .clear => True

namespace Plan

/-- What is called or accessed as a plain element is looked up under a plain name. -/
theorem plain_of_target? {names : Names} {element : Element} {name : TargetName}
    {kind : CheckKind} {arguments : Option CallArguments} (helement : element.Plain)
    (h : target? names element = some (name, kind, arguments)) : name.Plain := by
  cases element with
  | ofImport e =>
    simp only [target?] at h
    split at h <;> simp at h
    rw [← h.1]
    trivial
  | functionCall e =>
    simp only [target?, Option.map_eq_some_iff, Option.bind_eq_some_iff] at h
    obtain ⟨referent, _, _, hcall, ⟨⟩⟩ := h
    cases referent with
    | ofClass path =>
      cases hcall
      trivial
    | ofModule path =>
      obtain ⟨⟨owner, last⟩, hsplit, rfl⟩ := Option.map_eq_some_iff.mp hcall
      simpa [TargetName.Plain] using Dotted.dot_not_mem_of_splitLast? hsplit
  | methodCall e =>
    obtain ⟨referent, _, ⟨⟩⟩ := Option.map_eq_some_iff.mp h
    unfold methodTarget
    split
    · cases referent <;> trivial
    · cases referent <;> exact helement
  | attributeAccess e =>
    obtain ⟨referent, _, ⟨⟩⟩ := Option.map_eq_some_iff.mp h
    cases referent <;> exact helement
  | classDef e => simp [target?] at h
  | functionDef e => simp [target?] at h
  | variableAssign e => simp [target?] at h

/-- The plan of plain elements holds plain names only. -/
theorem plain_of_mem_ofElements {elements : List Element}
    (helements : ∀ element ∈ elements, element.Plain) {target : Target}
    (h : target ∈ (ofElements elements).targets) : target.name.Plain := by
  obtain ⟨names, element, hmem, htarget⟩ := exists_of_mem_planFrom h
  exact plain_of_target? (helements element hmem) htarget

end Plan

namespace GraphCheck

open Inquiry (Matched)

variable [Scalar α] (settings : Settings α)

/-- The check of a plain target asks plain questions and does not heed where answers come from. -/
theorem matched_checkTarget {target : Target} (h : target.name.Plain) :
    Matched Question.Plain Check.SameButOrigin (checkTarget Inquiry.lookups settings target)
      (checkTarget Inquiry.lookups settings target) := by
  obtain ⟨element, kind, name, arguments⟩ := target
  cases name with
  | ofModule path => exact matched_checkImport settings element trivial
  | ofClass path => exact matched_checkInstantiation settings element arguments trivial trivial
  | method owner name => exact matched_checkMethodCall settings element arguments h trivial
  | function path name => exact matched_checkFunctionCall settings element arguments h trivial
  | member owner name ownerIsClass =>
    apply matched_checkAttribute settings element h
    intro meaning hmeaning
    simp only [fallbacks] at hmeaning
    cases ownerIsClass <;> simp at hmeaning
    · rcases hmeaning with rfl | rfl | rfl
      · trivial
      · trivial
      · exact h
    · subst hmeaning
      exact h

/-- The check of a script with plain members asks plain questions and does not heed where answers
come from. -/
theorem matched_checkScript {analysis : Analysis}
    (h : ∀ element ∈ analysis.elements, element.Plain) :
    Matched Question.Plain GraphOutcome.SameButOrigin
      (checkScript Inquiry.lookups settings analysis)
      (checkScript Inquiry.lookups settings analysis) := by
  have htargets := Matched.mapM fun target (hmem : target ∈ analysis.plan.targets) =>
    matched_checkTarget settings (Plan.plain_of_mem_ofElements h hmem)
  exact htargets.bind fun _ _ hchecks => .pure ⟨hchecks, rfl⟩

end GraphCheck

/-- Whether a graph gives the fixed answers, whatever was asked before. -/
def KnowledgeGraph.AnswersAs (graph : KnowledgeGraph σ) (fixed : FixedGraph) : Prop :=
  ∀ question state, (graph.reply question state).answer = fixed.answer question

/-- The graph without a state that gives fixed answers. -/
def FixedGraph.steady (fixed : FixedGraph) : KnowledgeGraph Unit where
  findSymbol kind qualifiers state := ⟨fixed.findSymbol kind qualifiers, state, false⟩
  findMethodSignature owner method state := ⟨fixed.findMethodSignature owner method, state, false⟩
  findFunctionSignature path name state := ⟨fixed.findFunctionSignature path name, state, false⟩
  close := id

/-- The graph without a state gives the fixed answers. -/
theorem FixedGraph.steady_answersAs (fixed : FixedGraph) : fixed.steady.AnswersAs fixed := by
  intro question state
  cases question <;> rfl

/-- Whether what the cache holds for a question, if anything, is the fixed answer to it. -/
def Cache.TruthfulOn (cache : Cache) (fixed : FixedGraph) (question : Question) : Prop :=
  ∀ entry, cache.entries.get? question.key = some entry →
    ∃ answer : question.Answer, question.entry answer = entry ∧ fixed.answer question = .ok answer

namespace Cache.TruthfulOn

variable {cache : Cache} {fixed : FixedGraph} {graph : KnowledgeGraph σ} {question : Question}

/-- The empty cache holds nothing that is not true. -/
theorem empty (fixed : FixedGraph) (question : Question) :
    Cache.empty.TruthfulOn fixed question := by
  intro entry hget
  cases hget

/-- What the cache holds for the question belongs under its key. -/
theorem fits (h : cache.TruthfulOn fixed question) {entry : CacheEntry}
    (hget : cache.entries.get? question.key = some entry) : entry.Fits question.key := by
  obtain ⟨answer, rfl, _⟩ := h entry hget
  exact question.entry_fits answer

/-- What the cache holds for the question is its answer. -/
theorem answer_of_held (h : cache.TruthfulOn fixed question) {answer : question.Answer}
    (hget : cache.entries.get? question.key = some (question.entry answer)) :
    fixed.answer question = .ok answer := by
  obtain ⟨answer', hentry, hanswer⟩ := h _ hget
  obtain rfl := question.entry_injective hentry
  exact hanswer

/-- A lookup on a graph with fixed answers leaves what is true of a question, unless it is that of
another question with the same key. -/
theorem after_lookup (hgraph : graph.AnswersAs fixed) {asked : Question}
    (hapart : asked.key = question.key → asked = question) {desk after : Desk (Cached σ)}
    {outcome : Except Problem (Fetch asked.Answer)}
    (h : desk.state.cache.TruthfulOn fixed question)
    (hstep : LookupStep graph asked desk outcome after) :
    after.state.cache.TruthfulOn fixed question := by
  cases hstep with
  | hit | stopped | malformed | unavailable => exact h
  | kept answer absent live replied =>
    intro entry hget
    simp only [Desk.afterKeeping] at hget
    by_cases hkey : asked.key = question.key
    · obtain rfl := hapart hkey
      rw [Ordered.get?_put_self] at hget
      refine ⟨answer, Option.some.inj hget, ?_⟩
      rw [← hgraph asked desk.state.graph, replied]
    · rw [Ordered.get?_put_of_ne _ _ hkey] at hget
      exact h entry hget

end Cache.TruthfulOn

/-- Whether the cache holds nothing but fixed answers to plain questions. -/
def Cache.AgreesWith (cache : Cache) (fixed : FixedGraph) : Prop :=
  ∀ key entry, (key, entry) ∈ cache.entries → ∃ (question : Question) (answer : question.Answer),
    question.Plain ∧ question.key = key ∧ question.entry answer = entry ∧
      fixed.answer question = .ok answer

namespace Cache.AgreesWith

variable {cache : Cache} {fixed : FixedGraph} {graph : KnowledgeGraph σ} {question : Question}

/-- The empty cache agrees with every graph. -/
theorem empty (fixed : FixedGraph) : Cache.empty.AgreesWith fixed := by
  intro key entry hmem
  simp [Cache.empty] at hmem

/-- What the cache holds belongs under its key. -/
theorem allFit (h : cache.AgreesWith fixed) : cache.AllFit := by
  intro key entry hget
  obtain ⟨question, answer, _, rfl, rfl, _⟩ := h key entry (Ordered.mem_of_get? hget)
  exact question.entry_fits answer

/-- What the cache holds for a plain question is its answer. -/
theorem truthfulOn (h : cache.AgreesWith fixed) (hplain : question.Plain) :
    cache.TruthfulOn fixed question := by
  intro entry hget
  obtain ⟨question', answer, hplain', hkey, rfl, hanswer⟩ := h _ _ (Ordered.mem_of_get? hget)
  obtain rfl := hplain'.eq_of_key_eq hplain hkey
  exact ⟨answer, rfl, hanswer⟩

/-- Dropping an answer leaves nothing that does not agree. -/
theorem invalidate (h : cache.AgreesWith fixed) (key : CacheKey) :
    (cache.invalidate key).2.AgreesWith fixed :=
  fun other entry hmem => h other entry (Ordered.mem_of_mem_erase hmem)

/-- A lookup of a plain question on a graph with fixed answers leaves a cache that agrees with
it. -/
theorem after_lookup (hgraph : graph.AnswersAs fixed) (hplain : question.Plain)
    {desk after : Desk (Cached σ)} {outcome : Except Problem (Fetch question.Answer)}
    (h : desk.state.cache.AgreesWith fixed)
    (hstep : LookupStep graph question desk outcome after) :
    after.state.cache.AgreesWith fixed := by
  cases hstep with
  | hit | stopped | malformed | unavailable => exact h
  | kept answer absent live replied =>
    intro key entry hmem
    rcases Ordered.mem_of_mem_put hmem with hmem | heq
    · exact h key entry hmem
    · simp only [Prod.mk.injEq] at heq
      refine ⟨question, answer, hplain, heq.1.symm, heq.2.symm, ?_⟩
      rw [← hgraph question desk.state.graph, replied]

end Cache.AgreesWith

/-- Whether two outcomes are the same problem or have related values. -/
def Agree {β : Type} (related : α → β → Prop) : Except Problem α → Except Problem β → Prop
  | .ok value, .ok value' => related value value'
  | .error problem, .error problem' => problem = problem'
  | _, _ => False

/-- What agrees with a value is a value that is related to it. -/
theorem Agree.exists_of_ok {β : Type} {related : α → β → Prop} {outcome : Except Problem α}
    {value' : β} (h : Agree related outcome (.ok value')) :
    ∃ value, outcome = .ok value ∧ related value value' := by
  cases outcome with
  | error problem => exact h.elim
  | ok value => exact ⟨value, rfl, h⟩

namespace Inquiry

variable {β : Type} {related : α → β → Prop} {inquiry : Inquiry α} {inquiry' : Inquiry β}
  {graph : KnowledgeGraph σ} {fixed : FixedGraph}

/-- The lookups of a matched inquiry are those of admitted questions. -/
theorem Matched.admitted_of_mem_trace {admitted : Question → Prop}
    (hmatched : Matched admitted related inquiry inquiry') {desk : Desk (Cached σ)}
    {record : LookupRecord σ} (h : record ∈ inquiry.trace graph desk) :
    admitted record.question := by
  induction hmatched generalizing desk with
  | done value value' hvalue => simp [trace] at h
  | ask question next next' hquestion _ ih =>
    rcases hstart : ((cachedLookups graph).ask question).start desk with ⟨problem | fetch, after⟩
    · simp only [trace, hstart, List.mem_singleton] at h
      subst h
      exact hquestion
    · simp only [trace, hstart, List.mem_cons] at h
      rcases h with rfl | h
      · exact hquestion
      · exact ih fetch fetch rfl h

/-- Matched inquiries whose questions have keys of their own come to the same when one looks up
through a cache that holds the truth on these questions and the other asks directly, unless the
request is cancelled. -/
theorem Matched.agree_of_truthful {admitted : Question → Prop}
    (hmatched : Matched admitted related inquiry inquiry')
    (hapart : ∀ question question', admitted question → admitted question' →
      question.key = question'.key → question = question')
    (hgraph : graph.AnswersAs fixed) (desk : Desk (Cached σ))
    (hcache : ∀ question, admitted question → desk.state.cache.TruthfulOn fixed question)
    (hlive : ((inquiry.run (cachedLookups graph)).start desk).2.cancelled = false) :
    Agree related ((inquiry.run (cachedLookups graph)).start desk).1
      (inquiry'.run (directLookups fixed)) := by
  induction hmatched generalizing desk with
  | done value value' hvalue => exact hvalue
  | ask question next next' hquestion _ ih =>
    have hstep :=
      lookupStep_of_fits graph question fun _ hget => (hcache question hquestion).fits hget
    have hafter := fun other (hother : admitted other) =>
      (hcache other hother).after_lookup hgraph (hapart question other hquestion hother) hstep
    have hasked := hgraph question desk.state.graph
    rw [start_run_ask] at hlive ⊢
    simp only [run, directLookups_ask]
    generalize ((cachedLookups graph).ask question).start desk = looked at hstep hafter hlive ⊢
    obtain ⟨outcome, after⟩ := looked
    cases hstep with
    | hit answer held =>
      rw [(hcache question hquestion).answer_of_held held]
      exact ih (.cached answer) (.fresh answer) rfl _ hafter hlive
    | stopped absent cancelled => simp [cancelled] at hlive
    | kept answer absent live replied =>
      rw [← hasked, replied]
      exact ih (.fresh answer) (.fresh answer) rfl _ hafter hlive
    | malformed reason absent live replied =>
      rw [← hasked, replied]
      exact ih (.malformed reason) (.malformed reason) rfl _ hafter hlive
    | unavailable reason absent live replied =>
      rw [← hasked, replied]
      rfl

/-- Matched inquiries come to the same when one looks up through a cache that agrees with the graph
and the other asks directly, unless the request is cancelled. -/
theorem Matched.agree (hmatched : Matched Question.Plain related inquiry inquiry')
    (hgraph : graph.AnswersAs fixed) (desk : Desk (Cached σ))
    (hcache : desk.state.cache.AgreesWith fixed)
    (hlive : ((inquiry.run (cachedLookups graph)).start desk).2.cancelled = false) :
    Agree related ((inquiry.run (cachedLookups graph)).start desk).1
      (inquiry'.run (directLookups fixed)) :=
  hmatched.agree_of_truthful (fun _ _ hplain hplain' => hplain.eq_of_key_eq hplain') hgraph desk
    (fun _ hplain => hcache.truthfulOn hplain) hlive

end Inquiry

namespace Operation

variable [Scalar α] {graph : KnowledgeGraph σ} {fixed : FixedGraph} (settings : Settings α)

/-- The lookups of a plain operation are those of plain questions. -/
theorem plain_of_mem_trace {operation : Operation} (hplain : operation.Plain) {state : Cached σ}
    {record : LookupRecord σ} (h : record ∈ operation.trace graph settings state) :
    record.question.Plain := by
  cases operation with
  | check target cancelled =>
    exact (GraphCheck.matched_checkTarget settings hplain).admitted_of_mem_trace h
  | checkScript analysis cancelled =>
    exact (GraphCheck.matched_checkScript settings hplain).admitted_of_mem_trace h
  | invalidate key => simp [trace] at h
  | clear => simp [trace] at h

/-- A plain operation on a graph with fixed answers leaves a cache that agrees with it. -/
theorem agreesWith_run (hgraph : graph.AnswersAs fixed) {operation : Operation}
    (hplain : operation.Plain) {state : Cached σ} (hstate : state.cache.AgreesWith fixed) :
    (operation.run graph settings state).cache.AgreesWith fixed := by
  have hlookup : ∀ record ∈ operation.trace graph settings state,
      record.before.state.cache.AgreesWith fixed → record.after.state.cache.AgreesWith fixed := by
    intro record hrecord hbefore
    have hstep := lookupStep_start graph record.question hbefore.allFit
    rw [isOf_of_mem_trace settings hrecord] at hstep
    exact hbefore.after_lookup hgraph (plain_of_mem_trace settings hplain hrecord) hstep
  exact (operation.invariant graph settings (fun state => state.cache.AgreesWith fixed) hstate
    hlookup (fun key _ => hstate.invalidate key) (fun _ => .empty fixed)).1

/-- A graph that knows a module with one function, whose signature it cannot tell, and a class for
whose members it cannot be reached. -/
def arrays : FixedGraph where
  findSymbol
    | .ofModule, ["numpy"] | .function, ["numpy", "array"] => .ok (.found ["numpy"])
    | .member, _ => .error (.unavailable "closed")
    | _, _ => .ok .missing
  findMethodSignature _ _ := .ok none
  findFunctionSignature _ _ := .error (.malformed "no parameters")

/-- A script that imports a module and calls two of its functions, one of which is not known. -/
def arrayScript : Analysis where
  metadata := ⟨"arrays.py", 3, 16, "", none⟩
  elements := [.ofImport ⟨"numpy", none, some "np", 1⟩,
    .methodCall ⟨"np", "array", 1, 0, ⟨[.list], [], false⟩, 2⟩,
    .methodCall ⟨"np", "arrray", 1, 0, ⟨[.list], [], false⟩, 3⟩]

end Operation

end UsageAudit
