import UsageAudit.Proofs.KnowingMore

/-!
# What a reference to a member may mean

A reference to a member of a module is valid if the name is known as a member, a module, a class or
a function; to a member of a class, only if it is known as a member or a method. A call of the same
name is another matter: if it starts with a capital letter, it makes an object, whatever the owner
is. So a class within a class is found when an object of it is made, and in doubt when it is only
referred to.
-/

namespace UsageAudit

variable {α σ : Type}

/-- The questions by which a reference to a member is looked up, and those by which an object of it
is made. -/
inductive Question.OnMember (owner name : String) : Question → Prop where
  | member : OnMember owner name (.sighting .member [owner, name])
  | method : OnMember owner name (.sighting .method [owner, name])
  | function : OnMember owner name (.sighting .function [owner, name])
  | ofModule : OnMember owner name (.sighting .ofModule [owner ++ "." ++ name])
  | ofClass : OnMember owner name (.sighting .ofClass [owner ++ "." ++ name])
  | making : OnMember owner name (.methodSignature (owner ++ "." ++ name) "__init__")

/-- The answers to these questions are kept under keys of their own, whatever the names are. -/
theorem Question.OnMember.eq_of_key_eq {owner name : String} {question question' : Question}
    (h : question.OnMember owner name) (h' : question'.OnMember owner name)
    (heq : question.key = question'.key) : question = question' := by
  cases h <;> cases h' <;> first | rfl | simp [key] at heq

/-- Whether a graph knows anything that a reference to a member is looked up as. -/
def FixedGraph.KnowsMember (graph : FixedGraph) (owner name : String) (ownerIsClass : Bool) :
    Prop :=
  graph.Knows .member [owner, name] ∨
    if ownerIsClass then graph.Knows .method [owner, name]
    else
      graph.Knows .ofModule [owner ++ "." ++ name] ∨
        graph.Knows .ofClass [owner ++ "." ++ name] ∨ graph.Knows .function [owner, name]

/-- Where answers come from does not show in the status. -/
theorem Check.SameButOrigin.status {check check' : Check α} (h : check.SameButOrigin check') :
    check.verdict.status = check'.verdict.status := by
  obtain ⟨rest, cached, cached', rfl, rfl⟩ := h
  rfl

namespace GraphCheck

open Inquiry (Matched)

variable [Scalar α] (settings : Settings α) (element : ElementRef) {graph : KnowledgeGraph σ}
  {fixed : FixedGraph}

section Direct

variable (hfree : fixed.FaultFree)

include hfree

/-- A reference is valid if and only if what it is looked up as is known, and otherwise in doubt. -/
theorem status_checkAttribute (owner name : String) (ownerIsClass : Bool) :
    ∃ check, checkAttribute (directLookups fixed) settings element owner name ownerIsClass =
        .ok check ∧
      (check.verdict.status = .valid ↔ fixed.KnowsMember owner name ownerIsClass) ∧
      (check.verdict.status = .valid ∨ check.verdict.status = .uncertain) := by
  obtain ⟨first, hfirst⟩ := hfree.symbol .member [owner, name]
  obtain ⟨last, cached, hlast, hiff⟩ :=
    exists_resolved hfree first false (fallbacks owner name ownerIsClass)
  have hmeanings : (last.known = true ↔ fixed.KnowsMember owner name ownerIsClass) := by
    rw [hiff, ← FixedGraph.knows_iff hfirst]
    cases ownerIsClass <;> simp [FixedGraph.KnowsMember, fallbacks]
  simp only [checkAttribute, directLookups, hfirst, fetchDirect, bind, Except.bind,
    Fetch.isCached] at hlast ⊢
  rw [hlast]
  refine ⟨_, rfl, ?_, ?_⟩
  · rw [← hmeanings]
    exact status_existence _ _ (by simp)
  · cases hknown : last.known <;> simp [checkOf, existence, hknown, Verdict.withDetail,
      Verdict.withSuggestion, Verdict.plain]

/-- The making of an object finds its class if and only if the class is known. -/
theorem status_checkInstantiation (path : String) (arguments : Option CallArguments) :
    ∃ check, checkInstantiation (directLookups fixed) settings element path arguments = .ok check ∧
      (check.verdict.status ≠ .notFound ↔ fixed.Knows .ofClass [path]) := by
  obtain ⟨sighting, hsighting⟩ := hfree.symbol .ofClass [path]
  obtain ⟨signature, hsignature⟩ := hfree.methodSignature path "__init__"
  let wording : Wording α := ⟨"Class", path, settings.classFound, .notFound, settings.notFound⟩
  have hvalid : (existence wording (.fresh sighting)).1.status = .valid ↔ sighting.known = true :=
    status_existence wording sighting (by simp [wording])
  rw [FixedGraph.knows_iff hsighting, ← hvalid]
  simp only [checkInstantiation, directLookups, hsighting, hsignature, fetchDirect, bind,
    Except.bind]
  change ∃ check, (if (existence wording (.fresh sighting)).1.status = .valid then _ else _) = _ ∧ _
  split
  · rename_i hfound
    refine ⟨_, rfl, iff_of_true ?_ hfound⟩
    rcases keeps_or_weakens_withSignature (existence wording (.fresh sighting)).1
      (.fresh signature) arguments with hkeeps | ⟨judged, _, hweakens⟩
    · simp [checkOf, Verdict.withDetail, wording, hkeeps.status, hfound]
    · simp [checkOf, Verdict.withDetail, wording, hweakens.status]
  · rename_i hunknown
    have hmissing : isMissing (.fresh sighting) = true := by
      simpa [isMissing, hvalid] using hunknown
    refine ⟨_, rfl, iff_of_false ?_ hunknown⟩
    rw [existence_of_missing wording hmissing]
    simp [checkOf, Verdict.withDetail, Verdict.withSuggestion, Verdict.plain, wording]

end Direct

section Cached

variable (hgraph : graph.AnswersAs fixed) {owner name : String}

include hgraph

omit [Scalar α] in
/-- A check that asks about a member, through a cache that holds the truth on it, comes to the
status that it comes to by asking the graph directly, unless it is cancelled. -/
theorem exists_status_of_truthful {inquiry : Inquiry (Check α)}
    (hmatched : Matched (Question.OnMember owner name) Check.SameButOrigin inquiry inquiry)
    {direct : Check α} (hdirect : inquiry.run (directLookups fixed) = .ok direct)
    {desk after : Desk (Cached σ)}
    (hcache : ∀ question, question.OnMember owner name →
      desk.state.cache.TruthfulOn fixed question)
    {outcome : Except Problem (Check α)}
    (hrun : (inquiry.run (cachedLookups graph)).start desk = (outcome, after))
    (hlive : after.cancelled = false) :
    ∃ check, outcome = .ok check ∧ check.verdict.status = direct.verdict.status := by
  have hagree := hmatched.agree_of_truthful (fun _ _ h h' => h.eq_of_key_eq h') hgraph desk hcache
  rw [hrun, hdirect] at hagree
  obtain ⟨check, hcheck, hsame⟩ := (hagree hlive).exists_of_ok
  exact ⟨check, hcheck, hsame.status⟩

/-- The status of a reference that is looked up through a cache that holds the truth on it. -/
theorem status_of_reference (hfree : fixed.FaultFree) {ownerIsClass : Bool}
    {desk after : Desk (Cached σ)}
    (hcache : ∀ question, question.OnMember owner name →
      desk.state.cache.TruthfulOn fixed question)
    {outcome : Except Problem (Check α)}
    (hrun : (checkAttribute (cachedLookups graph) settings element owner name ownerIsClass).start
      desk = (outcome, after)) (hlive : after.cancelled = false) :
    ∃ check, outcome = .ok check ∧
      (check.verdict.status = .valid ↔ fixed.KnowsMember owner name ownerIsClass) ∧
      (check.verdict.status = .valid ∨ check.verdict.status = .uncertain) := by
  have hmeanings : ∀ meaning ∈ fallbacks owner name ownerIsClass,
      (Question.sighting meaning.1 meaning.2).OnMember owner name := by
    intro meaning hmeaning
    cases ownerIsClass with
    | false =>
      simp only [fallbacks, Bool.false_eq_true, if_false, List.mem_cons, List.not_mem_nil,
        or_false] at hmeaning
      rcases hmeaning with rfl | rfl | rfl
      · exact .ofModule
      · exact .ofClass
      · exact .function
    | true =>
      simp only [fallbacks, if_true, List.mem_singleton] at hmeaning
      subst hmeaning
      exact .method
  have hmatched := matched_checkAttribute settings element .member hmeanings
  obtain ⟨direct, hdirect, hstatus⟩ :=
    status_checkAttribute settings element hfree owner name ownerIsClass
  rw [← run_checkAttribute] at hdirect hrun
  obtain ⟨check, rfl, hsame⟩ := exists_status_of_truthful hgraph hmatched hdirect hcache hrun hlive
  exact ⟨check, rfl, hsame ▸ hstatus⟩

/-- The status of the making of an object that is looked up through a cache that holds the truth on
it. -/
theorem status_of_making (hfree : fixed.FaultFree) {arguments : Option CallArguments}
    {desk after : Desk (Cached σ)}
    (hcache : ∀ question, question.OnMember owner name →
      desk.state.cache.TruthfulOn fixed question)
    {outcome : Except Problem (Check α)}
    (hrun : (checkInstantiation (cachedLookups graph) settings element (owner ++ "." ++ name)
      arguments).start desk = (outcome, after)) (hlive : after.cancelled = false) :
    ∃ check, outcome = .ok check ∧
      (check.verdict.status ≠ .notFound ↔ fixed.Knows .ofClass [owner ++ "." ++ name]) := by
  have hmatched : Matched (Question.OnMember owner name) Check.SameButOrigin _ _ :=
    matched_checkInstantiation settings element arguments .ofClass .making
  obtain ⟨direct, hdirect, hstatus⟩ :=
    status_checkInstantiation settings element hfree (owner ++ "." ++ name) arguments
  rw [← run_checkInstantiation] at hdirect hrun
  obtain ⟨check, rfl, hsame⟩ := exists_status_of_truthful hgraph hmatched hdirect hcache hrun hlive
  exact ⟨check, rfl, hsame ▸ hstatus⟩

end Cached

/-- Of a member that is looked up through a cache that holds the truth on it, a reference is valid
if and only if something that it is looked up as is known, and in doubt otherwise; the making of an
object finds its class if and only if the class is known. So of a class that is found a reference is
in doubt if and only if its owner is a class, too, that has neither a member nor a method of the
name. -/
theorem reference_doubted_iff (element' : ElementRef) (hgraph : graph.AnswersAs fixed)
    (hfree : fixed.FaultFree) (owner name : String) (ownerIsClass : Bool)
    (arguments : Option CallArguments) {desk desk' after after' : Desk (Cached σ)}
    (hcache : ∀ question, question.OnMember owner name →
      desk.state.cache.TruthfulOn fixed question)
    (hcache' : ∀ question, question.OnMember owner name →
      desk'.state.cache.TruthfulOn fixed question)
    {referred made : Except Problem (Check α)}
    (hreferred : (checkAttribute (cachedLookups graph) settings element owner name
      ownerIsClass).start desk = (referred, after)) (hlive : after.cancelled = false)
    (hmade : (checkInstantiation (cachedLookups graph) settings element' (owner ++ "." ++ name)
      arguments).start desk' = (made, after')) (hlive' : after'.cancelled = false) :
    ∃ reference making, referred = .ok reference ∧ made = .ok making ∧
      (reference.verdict.status = .valid ↔ fixed.KnowsMember owner name ownerIsClass) ∧
      (reference.verdict.status = .valid ∨ reference.verdict.status = .uncertain) ∧
      (making.verdict.status ≠ .notFound ↔ fixed.Knows .ofClass [owner ++ "." ++ name]) ∧
      (making.verdict.status ≠ .notFound → (reference.verdict.status = .uncertain ↔
        ownerIsClass = true ∧ ¬fixed.Knows .member [owner, name] ∧
          ¬fixed.Knows .method [owner, name])) := by
  obtain ⟨reference, hreference, hvalid, hdoubted⟩ :=
    status_of_reference settings element hgraph hfree hcache hreferred hlive
  obtain ⟨making, hmaking, hfound⟩ :=
    status_of_making settings element' hgraph hfree hcache' hmade hlive'
  refine ⟨reference, making, hreference, hmaking, hvalid, hdoubted, hfound, fun hmade => ?_⟩
  have hclass : fixed.Knows .ofClass [owner ++ "." ++ name] := hfound.mp hmade
  have huncertain : reference.verdict.status = .uncertain ↔
      ¬fixed.KnowsMember owner name ownerIsClass := by
    rw [← hvalid]
    rcases hdoubted with hstatus | hstatus <;> simp [hstatus]
  rw [huncertain]
  cases ownerIsClass <;> simp [FixedGraph.KnowsMember, hclass]

end GraphCheck

namespace FixedGraph

/-- A graph that knows nothing but a class within a class. -/
def nestedClass : FixedGraph where
  findSymbol
    | .ofClass, ["acme.Outer.Inner"] => .ok (.found ["acme/lib"])
    | _, _ => .ok .missing
  findMethodSignature _ _ := .ok none
  findFunctionSignature _ _ := .ok none

/-- The graph always has an answer. -/
theorem faultFree_nestedClass : nestedClass.FaultFree := by
  refine ⟨fun kind qualifiers => ?_, fun _ _ => ⟨_, rfl⟩, fun _ _ => ⟨_, rfl⟩⟩
  unfold nestedClass
  dsimp only
  split <;> exact ⟨_, rfl⟩

end FixedGraph

namespace GraphCheck

open FixedGraph (nestedClass)

/-- A call of the inner class, by which an object of it is made. -/
def innerCall : ElementRef := ⟨1, .methodCall, "Outer.Inner", 2⟩

/-- A reference to the inner class. -/
def innerAccess : ElementRef := ⟨2, .attributeAccess, "Outer.Inner", 3⟩

/-- What comes of checking the reference. -/
def innerReference : Except Problem (Check Rat) × Desk (Cached Unit) :=
  (checkAttribute (cachedLookups nestedClass.steady) .standard innerAccess "acme.Outer" "Inner"
    true).start ⟨⟨.empty, ()⟩, false⟩

/-- What comes of checking the making of an object of the class. -/
def innerMaking : Except Problem (Check Rat) × Desk (Cached Unit) :=
  (checkInstantiation (cachedLookups nestedClass.steady) .standard innerCall
    ("acme.Outer" ++ "." ++ "Inner") (some ⟨[], [], false⟩)).start ⟨⟨.empty, ()⟩, false⟩

/-- Of a class within a class that is known as nothing else, an object can be made, but a reference
to it is in doubt. -/
theorem reference_doubted_iff_innerClass :
    ∃ reference making, innerReference.1 = .ok reference ∧ innerMaking.1 = .ok making ∧
      making.verdict.status ≠ .notFound ∧ reference.verdict.status = .uncertain := by
  have hlive : innerReference.2.cancelled = false := by decide +kernel
  have hlive' : innerMaking.2.cancelled = false := by decide +kernel
  have htruthful : ∀ question, question.OnMember "acme.Outer" "Inner" →
      Cache.empty.TruthfulOn nestedClass question := fun question _ => .empty nestedClass question
  cases hreferred : innerReference with
  | mk referred after =>
    cases hmade : innerMaking with
    | mk made after' =>
      rw [hreferred] at hlive
      rw [hmade] at hlive'
      obtain ⟨reference, making, rfl, rfl, _, _, hfound, hdoubted⟩ :=
        reference_doubted_iff .standard innerAccess innerCall nestedClass.steady_answersAs
          FixedGraph.faultFree_nestedClass "acme.Outer" "Inner" true (some ⟨[], [], false⟩)
          htruthful htruthful hreferred hlive hmade hlive'
      have hknown := hfound.mpr ⟨.found ["acme/lib"], rfl, rfl⟩
      have hunknown (kind : SymbolKind) : ¬nestedClass.Knows kind ["acme.Outer", "Inner"] := by
        have hmissing : nestedClass.findSymbol kind ["acme.Outer", "Inner"] = .ok .missing := by
          cases kind <;> rfl
        rw [FixedGraph.knows_iff hmissing]
        decide
      exact ⟨reference, making, rfl, rfl, hknown,
        (hdoubted hknown).mpr ⟨rfl, hunknown .member, hunknown .method⟩⟩

end GraphCheck

namespace Analysis

open FixedGraph (nestedClass)

/-- A script that makes an object of a class within a class, and then refers to the class. -/
def nestedSource : String := "from acme import Outer\nOuter.Inner()\nOuter.Inner\n"

/-- What the checks of the script say, one after the other. -/
def nestedStatuses : Option (List (CheckKind × String × Status)) := do
  let analysis ← (ofScript nestedSource "nested.py").toOption
  let run := (GraphCheck.checkScript (cachedLookups nestedClass.steady)
    (.standard : Settings Rat) analysis).start ⟨⟨.empty, ()⟩, false⟩
  let outcome ← run.1.toOption
  return outcome.checks.map fun check => (check.kind, check.target, check.verdict.status)

/-- Against a graph that knows the inner class, the making of an object of it is valid, and the
reference to it that follows is in doubt. -/
theorem known_class_doubted :
    nestedClass.FaultFree ∧ nestedClass.Knows .ofClass ["acme.Outer.Inner"] ∧
      nestedStatuses = some [(.ofImport, "acme", .notFound),
        (.instantiation, "acme.Outer.Inner", .valid),
        (.attributeAccess, "acme.Outer.Inner", .uncertain)] :=
  ⟨FixedGraph.faultFree_nestedClass, ⟨.found ["acme/lib"], rfl, rfl⟩, by decide +kernel⟩

end Analysis

end UsageAudit
