import UsageAudit.Proofs.SecondRun

/-!
# What a check says of its calls

Each check carries the word whether all its answers came from the cache. A watched graph notes what
it is asked, so this word can be held against the calls that were really made. It is true on any
graph and any cache, also one that holds entries of the wrong sort, which count for nothing. What a
check may ask is a row of questions that depends on the target alone: a run takes them in order and
may end before each of them. So there are few calls, and no two of them ask for the same.
-/

namespace UsageAudit

variable {α β σ : Type}

namespace Inquiry

/-- Whether an inquiry asks the questions of a row one after the other. It may end before any of
them. -/
inductive Follows : List Question → Inquiry α → Prop where
  | done (row : List Question) (value : α) : Follows row (.done value)
  | ask (question : Question) (row : List Question) (next : Fetch question.Answer → Inquiry α)
      (h : ∀ fetch, Follows row (next fetch)) : Follows (question :: row) (.ask question next)

namespace Follows

variable {row : List Question}

/-- What needs no question follows any row. -/
theorem pure (row : List Question) (value : α) : Follows row (Pure.pure value) := .done row value

/-- A lookup asks its question, and what comes after it goes on with the row. -/
theorem lookup (question : Question) {rest : Fetch question.Answer → Inquiry α}
    (h : ∀ fetch, Follows row (rest fetch)) :
    Follows (question :: row) (lookups.ask question >>= rest) := by
  cases question <;> exact .ask _ row _ h

/-- A last question that is asked on a condition. -/
theorem lookupIf (question : Question) (condition : Prop) [Decidable condition]
    (result : Fetch question.Answer → α) (otherwise : α) :
    Follows [question]
      (if condition then lookups.ask question >>= fun fetch => Pure.pure (result fetch)
        else Pure.pure otherwise) := by
  split
  · exact .lookup question fun fetch => .pure [] (result fetch)
  · exact .pure _ otherwise

/-- What is made of the value in the end asks nothing more. -/
theorem map {inquiry : Inquiry β} (h : Follows row inquiry) (f : β → α) :
    Follows row (inquiry >>= fun value => Pure.pure (f value)) := by
  induction h with
  | done row value => exact .done row (f value)
  | ask question row next _ ih => exact .ask question row _ ih

/-- A run calls the graph for some questions of the row, in order. What holds of the value of an
inquiry when it is told whether all answers were in the cache holds when it is told whether there
was no call. -/
theorem exists_calls {inquiry : Inquiry α} (hrow : Follows row inquiry)
    {holds : Bool → α → Prop} {recalled : Bool} (hyields : Yields holds recalled inquiry)
    (graph : KnowledgeGraph σ) (desk : Desk (Cached (Watched σ))) :
    let run := (inquiry.run (cachedLookups graph.watched)).start desk
    ∃ calls : List Exchange,
      run.2.state.graph.events = (calls.map Exchange.event).reverse ++ desk.state.graph.events ∧
      (calls.map Exchange.question).Sublist row ∧
      ∀ value, run.1 = .ok value → holds (recalled && calls.isEmpty) value := by
  intro run
  induction hrow generalizing desk recalled with
  | done row value =>
    cases hyields with
    | done _ _ hvalue =>
      refine ⟨[], rfl, List.nil_sublist row, ?_⟩
      rintro _ ⟨⟩
      simpa using hvalue
  | ask question row next _ ih =>
    cases hyields with
    | ask _ _ _ hnext =>
      obtain ⟨call, hevents, hcached⟩ := exists_call_start_lookup graph question desk
      have hfirst : ((call.toList.map (Exchange.mk question)).map Exchange.question).Sublist
          [question] := by
        cases call <;> simp
      simp only [run]
      rw [start_run_ask]
      generalize ((cachedLookups graph.watched).ask question).start desk = looked at hevents hcached
      obtain ⟨problem | fetch, between⟩ := looked
      · refine ⟨call.toList.map (Exchange.mk question), ?_, ?_, by simp⟩
        · cases call <;> exact hevents
        · exact hfirst.trans (by simp)
      · obtain ⟨calls, hrest, hsublist, hvalue⟩ := ih fetch (hnext fetch) between
        refine ⟨call.toList.map (Exchange.mk question) ++ calls, ?_, ?_, ?_⟩
        · rw [hrest, hevents]
          cases call <;> simp
        · rw [List.map_append]
          exact hfirst.append hsublist
        · intro value hrun
          have hall := hvalue value hrun
          rw [hcached fetch rfl] at hall
          cases call <;> simpa using hall

end Follows

end Inquiry

namespace TargetName

/-- What the check of a target may ask, in order. -/
def questions : TargetName → List Question
  | .ofModule path => [.sighting .ofModule [path]]
  | .ofClass path => [.sighting .ofClass [path], .methodSignature path "__init__"]
  | .method owner name => [.sighting .method [owner, name], .methodSignature owner name]
  | .function path name => [.sighting .function [path, name], .functionSignature path name]
  | .member owner name ownerIsClass =>
    .sighting .member [owner, name] ::
      (GraphCheck.fallbacks owner name ownerIsClass).map fun (kind, qualifiers) =>
        .sighting kind qualifiers

/-- How often the graph is called at most for the check of a target. -/
def mostCalls : TargetName → Nat
  | .ofModule _ => 1
  | .ofClass _ | .method .. | .function .. => 2
  | .member _ _ ownerIsClass => if ownerIsClass then 2 else 4

/-- Each question is worth a call. -/
theorem length_questions (name : TargetName) : name.questions.length = name.mostCalls := by
  cases name with
  | member owner name ownerIsClass => cases ownerIsClass <;> rfl
  | _ => rfl

/-- No two questions have their answers under one key. -/
theorem nodup_questions (name : TargetName) : (name.questions.map Question.key).Nodup := by
  cases name with
  | member owner name ownerIsClass =>
    cases ownerIsClass <;> simp [questions, GraphCheck.fallbacks, Question.key]
  | _ => simp [questions, Question.key]

/-- Whether the graph may be called like this, in order, for the check of a target. -/
structure CallsFor (name : TargetName) (calls : List Exchange) : Prop where
  ordered : (calls.map Exchange.question).Sublist name.questions
  bounded : calls.length ≤ name.mostCalls
  distinct : (calls.map fun call => call.question.key).Nodup

/-- Calls for some of the questions in order are few, and all different. -/
theorem CallsFor.of_sublist {name : TargetName} {calls : List Exchange}
    (h : (calls.map Exchange.question).Sublist name.questions) : name.CallsFor calls where
  ordered := h
  bounded := by
    have hlength := h.length_le
    rwa [List.length_map, name.length_questions] at hlength
  distinct := by
    have hkeys := (h.map Question.key).nodup name.nodup_questions
    rwa [List.map_map] at hkeys

end TargetName

namespace GraphCheck

open Inquiry (Follows Yields)

variable [Scalar α] (settings : Settings α) (element : ElementRef)

/-- Looking for a further meaning asks for the meanings in order. -/
theorem follows_resolveFallbacks (fetch : Fetch Sighting) (cached : Bool)
    (meanings : List (SymbolKind × List String)) :
    Follows (meanings.map fun (kind, qualifiers) => .sighting kind qualifiers)
      (resolveFallbacks Inquiry.lookups fetch cached meanings) := by
  induction meanings generalizing fetch cached with
  | nil => exact .pure _ _
  | cons meaning rest ih =>
    obtain ⟨kind, qualifiers⟩ := meaning
    simp only [resolveFallbacks]
    split
    · exact .lookup (.sighting kind qualifiers) fun next => ih next _
    · exact .pure _ _

/-- The check of an access to a member asks for the member and then for its further meanings. -/
theorem follows_checkAttribute (owner name : String) (ownerIsClass : Bool) :
    Follows (TargetName.member owner name ownerIsClass).questions
      (checkAttribute Inquiry.lookups settings element owner name ownerIsClass) :=
  .lookup (.sighting .member [owner, name]) fun first =>
    (follows_resolveFallbacks first first.isCached _).map _

/-- The check of a target asks the questions of its row. That of a call goes on to the signature
only if the name is known. -/
theorem follows_checkTarget (target : Target) :
    Follows target.name.questions (checkTarget Inquiry.lookups settings target) := by
  obtain ⟨element, kind, name, arguments⟩ := target
  cases name with
  | ofModule path => exact .lookup (.sighting .ofModule [path]) fun _ => .pure [] _
  | ofClass path =>
    exact .lookup (.sighting .ofClass [path]) fun _ =>
      .lookupIf (.methodSignature path "__init__") ..
  | method owner name =>
    exact .lookup (.sighting .method [owner, name]) fun _ =>
      .lookupIf (.methodSignature owner name) ..
  | function path name =>
    exact .lookup (.sighting .function [path, name]) fun _ =>
      .lookupIf (.functionSignature path name) ..
  | member owner name ownerIsClass =>
    exact follows_checkAttribute settings element owner name ownerIsClass

/-- The word of a check on the cache is true. On any graph and with any cache, whatever is checked
and whether the request still stands or not, the graph is called for some of the questions that the
target gives rise to, in their order: at most once for an import, twice for a class, a method, a
function or a member of a class, and four times for a member of a module, and never twice for the
same. If there is a check in the end, it says that all answers were in the cache if there was no
call, and that they were not if there was one. -/
theorem origin_tells_calls (graph : KnowledgeGraph σ) (target : Target) (state : Cached σ)
    (cancelled : Bool) :
    let run := (checkTarget (cachedLookups graph) settings target).start ⟨state, cancelled⟩
    let watched :=
      (checkTarget (cachedLookups graph.watched) settings target).start ⟨state.noted, cancelled⟩
    run = (watched.1, watched.2.unwatched) ∧
      ∃ calls : List Exchange,
        watched.2.state.graph.events = (calls.map Exchange.event).reverse ∧
        target.name.CallsFor calls ∧
        ∀ check, run.1 = .ok check →
          check.verdict.details.get? "from_cache" = some (.bool calls.isEmpty) := by
  intro run watched
  have hunwatched := Inquiry.start_run_unwatched graph
    (checkTarget Inquiry.lookups settings target) ⟨state.noted, cancelled⟩
  simp only [run_checkTarget] at hunwatched
  have hrun : run = (watched.1, watched.2.unwatched) := hunwatched
  obtain ⟨calls, hevents, hsublist, hvalue⟩ :=
    (follows_checkTarget settings target).exists_calls (yields_checkTarget settings target) graph
      ⟨state.noted, cancelled⟩
  simp only [run_checkTarget] at hevents hvalue
  refine ⟨hrun, calls, ?_, .of_sublist hsublist, ?_⟩
  · exact hevents.trans (List.append_nil _)
  · intro check hcheck
    rw [hrun] at hcheck
    simpa using (hvalue check hcheck).origin

/-- A graph that knows functions alone, and counts what it was asked. -/
def functionGraph : KnowledgeGraph Nat where
  findSymbol kind _ asked :=
    ⟨.ok (if kind == .function then .found ["numpy"] else .missing), asked + 1, false⟩
  findMethodSignature _ _ asked := ⟨.ok none, asked + 1, false⟩
  findFunctionSignature _ _ asked := ⟨.ok none, asked + 1, false⟩
  close := id

/-- An access to a member of a module. -/
def arrayAccess : Target :=
  ⟨⟨0, .attributeAccess, "numpy.array", 1⟩, .attributeAccess, .member "numpy" "array" false, none⟩

/-- A cache that holds two of the answers, and for a third question what is no answer to it. -/
def patchyCache : Cache :=
  { Cache.empty with
    entries := [(.symbol .member "numpy.array", .sighting .missing),
      (.symbol .ofModule "numpy.array", .signature none),
      (.symbol .ofClass "numpy.array", .sighting .missing)] }

/-- What comes of checking the access. -/
def patchyRun : Except Problem (Check Rat) × Desk (Cached Nat) :=
  (checkTarget (cachedLookups functionGraph) Settings.standard arrayAccess).start
    ⟨⟨patchyCache, 0⟩, false⟩

/-- The access is checked with two calls of four: one for the entry of the wrong sort, and one for
what the cache does not hold. So the check says that not all answers were in the cache. -/
theorem origin_tells_calls_patchyRun :
    ∃ check after, ∃ calls : List Exchange, patchyRun = (.ok check, after) ∧
      arrayAccess.name.CallsFor calls ∧ calls.length = 2 ∧
      check.verdict.details.get? "from_cache" = some (.bool false) := by
  have hok : patchyRun.1.toOption.isSome = true := by decide +kernel
  have hasked : ((checkTarget (cachedLookups functionGraph.watched)
      (Settings.standard : Settings Rat) arrayAccess).start
        ⟨Cached.noted ⟨patchyCache, 0⟩, false⟩).2.state.graph.events.length = 2 := by
    decide +kernel
  obtain ⟨-, calls, hevents, hcalls, horigin⟩ := origin_tells_calls
    (Settings.standard : Settings Rat) functionGraph arrayAccess ⟨patchyCache, 0⟩ false
  have hlength : calls.length = 2 := by simpa [hevents] using hasked
  have hsome : calls.isEmpty = false := by
    cases calls <;> simp at hlength ⊢
  rcases hrun : patchyRun with ⟨problem | check, after⟩
  · rw [hrun] at hok
    cases hok
  · have hcheck := horigin check (congrArg Prod.fst hrun)
    rw [hsome] at hcheck
    exact ⟨check, after, calls, rfl, hcalls, hlength, hcheck⟩

end GraphCheck

end UsageAudit
