import UsageAudit.Proofs.CachedLookup

/-!
# Grounding as a tree of queries

The examples of a script are searched query by query. Written down as a tree, like the questions of
a check, the search can be stopped between any two queries. This file turns the grounding of a
script into such a tree and shows that carrying the tree out is the grounding itself.
-/

namespace UsageAudit

variable {α τ : Type}

/-- Queries, each of which is made when the ones before it have been answered, and what they lead
to. -/
inductive Survey (α : Type) where
  | done (outcome : SemanticOutcome α)
  | ask (query : String) (next : Except SourceFault (List (Hit α)) → Survey α)

/-- Searches for examples, if there is an index and the request still stands. -/
def exampleSearch (examples : Option (ExampleIndex α τ)) (settings : Settings α) (query : String) :
    Request τ (Except SourceFault (List (Hit α))) := do
  Request.checkpoint
  match examples with
  | some index => Request.ask (index.search query settings.topK settings.minSimilarity)
  | none => return .error (.unavailable "no example index configured")

/-- A search has an answer, or the request has been cancelled before it. -/
theorem start_exampleSearch_cases (examples : Option (ExampleIndex α τ)) (settings : Settings α)
    (query : String) (desk : Desk τ) :
    (exampleSearch examples settings query).start desk = (.error .cancelled, desk) ∨
      ∃ answer after,
        (exampleSearch examples settings query).start desk = (.ok answer, after) := by
  simp only [exampleSearch, Request.start_bind, Request.start_checkpoint]
  cases desk.cancelled with
  | true => exact Or.inl rfl
  | false => cases examples <;> exact Or.inr ⟨_, _, rfl⟩

namespace Survey

/-- Carries a survey out. -/
def run {m : Type → Type} [Monad m] (search : String → m (Except SourceFault (List (Hit α)))) :
    Survey α → m (SemanticOutcome α)
  | .done outcome => pure outcome
  | .ask query next => do run search (next (← search query))

/-- Carrying a survey out goes on from the first query, unless that met with a problem. -/
theorem start_run_ask (search : String → Request τ (Except SourceFault (List (Hit α))))
    (query : String) (next : Except SourceFault (List (Hit α)) → Survey α) (desk : Desk τ) :
    ((Survey.ask query next).run search).start desk =
      match (search query).start desk with
      | (.ok answer, after) => ((next answer).run search).start after
      | (.error problem, after) => (.error problem, after) := by
  simp only [run, Request.start_bind]
  rcases (search query).start desk with ⟨problem | answer, after⟩ <;> rfl

variable [Scalar α] (settings : Settings α)

/-- The survey of usages one after the other. `found` says what was found for those before them. An
index that cannot be reached ends it. -/
def ofQueries (found : List (Grounding α)) : List (ElementRef × String) → Survey α
  | [] => .done ⟨true, found, none⟩
  | (element, query) :: rest =>
    .ask query fun
      | .ok hits => ofQueries (found ++ [Grounding.classify settings element query hits]) rest
      | .error (.malformed reason) =>
        ofQueries (found ++ [Grounding.malformed element query reason]) rest
      | .error (.unavailable reason) => .done (.degraded reason)

/-- The survey of a script, if there is an index and grounding is asked for. -/
def ofScript (indexed : Bool) (analysis : Analysis) : Survey α :=
  if indexed then
    if settings.semanticEnabled then ofQueries settings [] (ExampleSearch.queries analysis)
    else .done (.degraded "semantic validation disabled")
  else .done (.degraded "no example index configured")

end Survey

namespace Request

/-- What is caught starts from the desk that the problem left. -/
theorem start_tryCatch {σ β : Type} (request : Request σ β) (handler : Problem → Request σ β)
    (desk : Desk σ) :
    (tryCatch request handler).start desk =
      match request.start desk with
      | (.ok value, after) => (.ok value, after)
      | (.error problem, after) => (handler problem).start after := by
  simp only [Request.start, ExceptT.run_tryCatch, StateT.run_bind, Id.run_bind]
  rcases StateT.run (ExceptT.run request) desk with ⟨_ | value, after⟩ <;> rfl

end Request

namespace ExampleSearch

variable [Scalar α] (index : ExampleIndex α τ) (settings : Settings α)

/-- What comes of a script from what came of its usages, some of which were grounded before. -/
def outcomeOf (found : List (Grounding α)) :
    Except Problem (List (Grounding α)) → Except Problem (SemanticOutcome α)
  | .ok results => .ok ⟨true, found ++ results, none⟩
  | .error (.degraded reason) => .ok (.degraded reason)
  | .error problem => .error problem

/-- A usage is grounded by what its search comes to. -/
theorem start_groundElement (element : ElementRef) (query : String) (desk : Desk τ) :
    (groundElement index settings element query).start desk =
      match (exampleSearch (some index) settings query).start desk with
      | (.ok (.ok hits), after) => (.ok (Grounding.classify settings element query hits), after)
      | (.ok (.error (.malformed reason)), after) =>
        (.ok (Grounding.malformed element query reason), after)
      | (.ok (.error (.unavailable reason)), after) => (.error (.degraded reason), after)
      | (.error problem, after) => (.error problem, after) := by
  simp only [groundElement, exampleSearch, Request.start_bind, Request.start_checkpoint]
  cases desk.cancelled with
  | true => rfl
  | false =>
    simp only [Bool.false_eq_true, if_false, Request.start_ask]
    rcases (index.search query settings.topK settings.minSimilarity desk.state).answer with
      (reason | reason) | hits <;> rfl

omit [Scalar α] in
/-- A further usage that was grounded counts among those before or among those to come. -/
theorem outcomeOf_append (found : List (Grounding α)) (grounding : Grounding α)
    (results : Except Problem (List (Grounding α))) :
    outcomeOf (found ++ [grounding]) results =
      outcomeOf found (results.map fun rest => grounding :: rest) := by
  rcases results with problem | results
  · cases problem <;> rfl
  · simp [outcomeOf, Except.map]

/-- The usages of a row, grounded one after the other. -/
def groundRow (jobs : List (ElementRef × String)) : Request τ (List (Grounding α)) :=
  jobs.mapM fun (element, query) => groundElement index settings element query

/-- The first usage of a row is grounded before the others. -/
theorem groundRow_cons (element : ElementRef) (query : String)
    (rest : List (ElementRef × String)) :
    groundRow index settings ((element, query) :: rest) =
      groundElement index settings element query >>= fun grounding =>
        (fun others => grounding :: others) <$> groundRow index settings rest := by
  simp [groundRow, List.mapM_cons]

/-- The survey of usages grounds them one after the other. -/
theorem start_run_ofQueries (jobs : List (ElementRef × String)) (found : List (Grounding α))
    (desk : Desk τ) :
    ((Survey.ofQueries settings found jobs).run (exampleSearch (some index) settings)).start desk =
      (outcomeOf found ((groundRow index settings jobs).start desk).1,
        ((groundRow index settings jobs).start desk).2) := by
  induction jobs generalizing found desk with
  | nil => simp [Survey.ofQueries, Survey.run, outcomeOf, groundRow]
  | cons job rest ih =>
    obtain ⟨element, query⟩ := job
    rw [groundRow_cons, Request.start_bind, start_groundElement, Survey.ofQueries,
      Survey.start_run_ask]
    rcases start_exampleSearch_cases (some index) settings query desk with
      hcancelled | ⟨(reason | reason) | hits, after, hanswer⟩
    · simp only [hcancelled]
      rfl
    · simp only [hanswer]
      rfl
    · simp only [hanswer, ih, outcomeOf_append, Request.start_map]
    · simp only [hanswer, ih, outcomeOf_append, Request.start_map]

/-- Grounding a script is its survey, carried out. -/
theorem start_run_ofScript (examples : Option (ExampleIndex α τ)) (analysis : Analysis)
    (desk : Desk τ) :
    ((Survey.ofScript settings examples.isSome analysis).run
        (exampleSearch examples settings)).start desk =
      (groundWith examples settings analysis).start desk := by
  cases examples with
  | none => rfl
  | some index =>
    cases henabled : settings.semanticEnabled with
    | false => simp [Survey.ofScript, Survey.run, groundWith, henabled]
    | true =>
      have hrow : groundAll index settings analysis =
          groundRow index settings (queries analysis) := rfl
      simp only [Survey.ofScript, groundWith, henabled, Option.isSome_some, if_true,
        start_run_ofQueries, groundScript, Request.start_tryCatch, Request.start_bind, hrow]
      rcases (groundRow index settings (queries analysis)).start desk with
        ⟨problem | results, after⟩
      · cases problem <;> rfl
      · simp [outcomeOf]

end ExampleSearch

end UsageAudit
