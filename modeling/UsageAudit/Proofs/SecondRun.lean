import UsageAudit.Proofs.CacheTransparency
import UsageAudit.Proofs.CheckedTargets
import UsageAudit.Proofs.ImportedNames

/-!
# Checking a script again

The first answer to a question stays in the cache. So when a script has been checked and all its
questions have been answered, a second check needs no source: it asks the same questions in the same
order, and finds each answered as it was. This holds of any graph, however its answers may depend on
what it was asked before, since the second check never gets to it.
-/

namespace UsageAudit

variable {α β σ : Type}

/-- Whether all that the first entries hold is held in the same way by the second ones. -/
def Cache.Extends (entries entries' : Ordered CacheKey CacheEntry) : Prop :=
  ∀ key entry, entries.get? key = some entry → entries'.get? key = some entry

namespace Inquiry

/-- Whether the entries alone lead an inquiry to the value: they hold the answers to all its
questions. -/
inductive Recalls (entries : Ordered CacheKey CacheEntry) : Inquiry α → α → Prop where
  | done (value : α) : Recalls entries (.done value) value
  | ask (question : Question) (next : Fetch question.Answer → Inquiry α) (answer : question.Answer)
      (value : α) (held : entries.get? question.key = some (question.entry answer))
      (rest : Recalls entries (next (.cached answer)) value) :
      Recalls entries (.ask question next) value

namespace Recalls

variable {entries : Ordered CacheKey CacheEntry} {inquiry : Inquiry α} {value : α}

/-- An inquiry that the cache can answer comes to its value without the graph, whether the request
still stands or not. The graph and the entries stay as they are. -/
theorem start_run (h : Recalls entries inquiry value) (graph : KnowledgeGraph σ)
    {desk : Desk (Cached σ)} (hentries : desk.state.cache.entries = entries) :
    ∃ after, (inquiry.run (cachedLookups graph)).start desk = (.ok value, after) ∧
      after.state.graph = desk.state.graph ∧ after.state.cache.entries = entries ∧
      after.cancelled = desk.cancelled := by
  induction h generalizing desk with
  | done value => exact ⟨desk, rfl, rfl, hentries, rfl⟩
  | ask question next answer value held _ ih =>
    subst hentries
    obtain ⟨after, hrun, hgraph, hafter, hflag⟩ := @ih desk.afterHit rfl
    refine ⟨after, ?_, hgraph, hafter, hflag⟩
    rw [start_run_ask, start_lookup_of_held graph held]
    exact hrun

/-- What holds of all that an inquiry can come to holds of what it comes to from the cache, with the
word that all answers were in the cache. -/
theorem of_yields (h : Recalls entries inquiry value) {holds : Bool → α → Prop}
    (hyields : Yields holds true inquiry) : holds true value := by
  induction h with
  | done value =>
    cases hyields with
    | done _ _ hvalue => exact hvalue
  | ask question next answer value held _ ih =>
    cases hyields with
    | ask _ _ _ hnext => exact ih (hnext (.cached answer))

end Recalls

end Inquiry

/-- How a row of lookups on a watched graph changes what is kept and noted: entries and events are
added, and none are lost. -/
structure Desk.GrowsTo (desk after : Desk (Cached (Watched σ))) : Prop where
  fits : after.state.cache.AllFit
  entries : Cache.Extends desk.state.cache.entries after.state.cache.entries
  events : desk.state.graph.events ⊆ after.state.graph.events

namespace Desk.GrowsTo

variable {graph : KnowledgeGraph σ} {desk between after : Desk (Cached (Watched σ))}

/-- Without a lookup nothing changes. -/
theorem refl (h : desk.state.cache.AllFit) : desk.GrowsTo desk :=
  ⟨h, fun _ _ held => held, List.Subset.refl _⟩

/-- One row of lookups after the other. -/
theorem trans (first : desk.GrowsTo between) (second : between.GrowsTo after) :
    desk.GrowsTo after :=
  ⟨second.fits, fun key entry held => second.entries key entry (first.entries key entry held),
    List.Subset.trans first.events second.events⟩

/-- A lookup keeps what there is. -/
theorem of_lookupStep {question : Question} {outcome : Except Problem (Fetch question.Answer)}
    (hfit : desk.state.cache.AllFit)
    (hstep : LookupStep graph.watched question desk outcome after) : desk.GrowsTo after := by
  have hevents : desk.state.graph.events ⊆
      (graph.watched.reply question desk.state.graph).state.events := by
    rw [events_watched_reply]
    exact List.subset_cons_self ..
  cases hstep with
  | hit answer held => exact ⟨hfit, fun _ _ held => held, List.Subset.refl _⟩
  | stopped absent cancelled => exact ⟨hfit, fun _ _ held => held, List.Subset.refl _⟩
  | malformed reason absent live replied => exact ⟨hfit, fun _ _ held => held, hevents⟩
  | unavailable reason absent live replied => exact ⟨hfit, fun _ _ held => held, hevents⟩
  | kept answer absent live replied =>
    refine ⟨?_, ?_, hevents⟩
    · intro key entry held
      by_cases hkey : question.key = key
      · subst hkey
        have heq : question.entry answer = entry := by
          simpa [Desk.afterKeeping] using held
        exact heq ▸ question.entry_fits answer
      · refine hfit key entry ?_
        rwa [Desk.afterKeeping, Ordered.get?_put_of_ne _ _ hkey] at held
    · intro key entry held
      have hkey : question.key ≠ key := by
        rintro rfl
        simp [absent] at held
      simpa [Desk.afterKeeping, Ordered.get?_put_of_ne _ _ hkey] using held

end Desk.GrowsTo

namespace Inquiry

variable {graph : KnowledgeGraph σ} {desk : Desk (Cached (Watched σ))}

/-- A run keeps what there is. -/
theorem growsTo_run (inquiry : Inquiry α) (hfit : desk.state.cache.AllFit) :
    desk.GrowsTo ((inquiry.run (cachedLookups graph.watched)).start desk).2 := by
  refine ((inquiry.linked_trace graph.watched desk).invariant (desk.GrowsTo ·) (.refl hfit) ?_).1
  intro record hrecord hbefore
  have hstep := lookupStep_start graph.watched record.question hbefore.fits
  rw [isOf_of_mem_trace hrecord] at hstep
  exact hbefore.trans (.of_lookupStep hbefore.fits hstep)

/-- When all answers to an inquiry had the right form, it can be made again from the cache that it
leaves: what a matched inquiry comes to from there is related to its value. -/
theorem Matched.exists_recalls {admitted : Question → Prop} {related : α → β → Prop}
    {inquiry : Inquiry α} {inquiry' : Inquiry β}
    (hmatched : Matched admitted related inquiry inquiry') (hfit : desk.state.cache.AllFit)
    {value : α} {after : Desk (Cached (Watched σ))}
    (hrun : (inquiry.run (cachedLookups graph.watched)).start desk = (.ok value, after))
    (hwell : ∀ key reason, .asked key (.error (.malformed reason)) ∉ after.state.graph.events) :
    ∃ value', related value value' ∧ Recalls after.state.cache.entries inquiry' value' := by
  induction hmatched generalizing desk with
  | done given given' hvalue =>
    cases hrun
    exact ⟨given', hvalue, .done given'⟩
  | ask question next next' _ _ ih =>
    have hstep := lookupStep_start graph.watched question hfit
    rw [start_run_ask] at hrun
    generalize ((cachedLookups graph.watched).ask question).start desk = looked at hrun hstep
    obtain ⟨outcome, between⟩ := looked
    have hbetween : desk.GrowsTo between := .of_lookupStep hfit hstep
    cases outcome with
    | error problem => cases hrun
    | ok fetch =>
      dsimp only at hrun
      have hafter : between.GrowsTo after := by
        have hgrows : between.GrowsTo
            (((next fetch).run (cachedLookups graph.watched)).start between).2 :=
          growsTo_run (next fetch) hbetween.fits
        rwa [hrun] at hgrows
      have hgoesOn (answer : question.Answer) (hcontent : fetch.content = .ok answer)
          (hheld : between.state.cache.entries.get? question.key = some (question.entry answer)) :
          ∃ value', related value value' ∧
            Recalls after.state.cache.entries (.ask question next') value' := by
        obtain ⟨value', hvalue, hrecalls⟩ :=
          ih fetch (.cached answer) hcontent hbetween.fits hrun
        exact ⟨value', hvalue, .ask question next' answer value'
          (hafter.entries _ _ hheld) hrecalls⟩
      cases hstep with
      | hit answer held => exact hgoesOn answer rfl held
      | kept answer absent live replied =>
        exact hgoesOn answer rfl (Ordered.get?_put_self _ _ _)
      | malformed reason absent live replied =>
        have hasked := events_watched_reply graph question desk.state.graph
        rw [replied] at hasked
        refine absurd (hafter.events ?_) (hwell question.key reason)
        change _ ∈ (graph.watched.reply question desk.state.graph).state.events
        rw [hasked]
        exact List.mem_cons_self

end Inquiry

/-- The checks of a script with the word that all their answers came from the cache. -/
def GraphOutcome.recalled (outcome : GraphOutcome α) : GraphOutcome α :=
  { outcome with checks := outcome.checks.map fun check => check.withOrigin true }

/-- A check that differs from another in nothing but its word on the cache, and says that all its
answers came from there, is the other one with this word. -/
theorem Check.SameButOrigin.eq_withOrigin {check check' : Check α} {element : ElementRef}
    {name : TargetName} (hsame : check.SameButOrigin check') (hof : check'.IsOf element name true) :
    check' = check.withOrigin true := by
  obtain ⟨rest, cached, cached', rfl, rfl⟩ := hsame
  have horigin : cached' = true := by
    simpa [withOrigin, Verdict.withDetail] using hof.origin
  subst horigin
  simp [withOrigin, Verdict.withDetail, Ordered.put_put]

/-- Outcomes that differ in nothing but the word on the cache: the one all of whose answers came
from there is the other one with this word. -/
theorem GraphOutcome.SameButOrigin.eq_recalled {outcome outcome' : GraphOutcome α}
    {targets : List Target} (hsame : outcome.SameButOrigin outcome')
    (hof : List.Forall₂ (fun target check =>
        ∃ own, (true = true → own = true) ∧ check.IsOf target.element target.name own)
      targets outcome'.checks) : outcome' = outcome.recalled := by
  obtain ⟨checks, skipped⟩ := outcome
  obtain ⟨checks', skipped'⟩ := outcome'
  obtain ⟨hchecks, hskipped⟩ := hsame
  dsimp only at hchecks hskipped hof
  subst hskipped
  simp only [recalled, GraphOutcome.mk.injEq, and_true]
  induction hchecks generalizing targets with
  | nil => rfl
  | cons hcheck _ ih =>
    cases hof with
    | cons hfirst hrest =>
      obtain ⟨own, hown, hcheck'⟩ := hfirst
      rw [hown rfl] at hcheck'
      rw [hcheck.eq_withOrigin hcheck', ih hrest, List.map_cons]

/-- A graph and its cache, watched from now on. -/
def Cached.noted (state : Cached σ) : Cached (Watched σ) := ⟨state.cache, ⟨state.graph, []⟩⟩

/-- Whether the event is no malformed answer. -/
def Event.isReadable : Event → Bool
  | .asked _ (.error (.malformed _)) => false
  | .asked .. | .dropped _ | .cleared => true

namespace Operation

variable [Scalar α] (graph : KnowledgeGraph σ) (settings : Settings α)

/-- After any row of operations, what the cache holds belongs under its keys. -/
theorem allFit_runAll (start : σ) (operations : List Operation) :
    (runAll graph settings ⟨.empty, start⟩ operations).cache.AllFit := by
  have hconsistent :=
    (consistent_watchAll graph settings (Cached.Consistent.fresh start) operations).1
  have hunwatched := unwatched_watchAll graph settings ⟨.empty, ⟨start, []⟩⟩ operations
  rw [show runAll graph settings ⟨.empty, start⟩ operations =
    runAll graph settings (Cached.unwatched ⟨.empty, ⟨start, []⟩⟩) operations from rfl,
    ← hunwatched]
  exact hconsistent.fits

/-- A script that has been checked, on any graph and after any row of operations, with no answer
that was malformed, is checked again for nothing: the second check comes to the same, even in a
request that was cancelled before, but for the word that every answer came from the cache. The graph
is not asked, and what is kept stays as it is. -/
theorem rerun_recalled (start : σ) (operations : List Operation) (analysis : Analysis)
    (cancelled : Bool) {outcome : GraphOutcome α} {desk : Desk (Cached (Watched σ))}
    (houtcome : (GraphCheck.checkScript (cachedLookups graph.watched) settings analysis).start
      ⟨(runAll graph settings ⟨.empty, start⟩ operations).noted, cancelled⟩ = (.ok outcome, desk))
    (hwell : ∀ key reason, .asked key (.error (.malformed reason)) ∉ desk.state.graph.events) :
    (GraphCheck.checkScript (cachedLookups graph) settings analysis).start
        ⟨runAll graph settings ⟨.empty, start⟩ operations, cancelled⟩ =
          (.ok outcome, desk.unwatched) ∧
      ∀ again : Bool, ∃ after : Desk (Cached (Watched σ)),
        (GraphCheck.checkScript (cachedLookups graph.watched) settings analysis).start
            ⟨desk.state, again⟩ = (.ok outcome.recalled, after) ∧
          (GraphCheck.checkScript (cachedLookups graph) settings analysis).start
            ⟨desk.state.unwatched, again⟩ = (.ok outcome.recalled, after.unwatched) ∧
          after.state.graph = desk.state.graph ∧
          after.state.cache.entries = desk.state.cache.entries ∧ after.cancelled = again := by
  have hfit := allFit_runAll graph settings start operations
  have hunwatched := Inquiry.start_run_unwatched graph
    (GraphCheck.checkScript Inquiry.lookups settings analysis)
  simp only [GraphCheck.run_checkScript] at hunwatched
  refine ⟨?_, ?_⟩
  · have hfirst := hunwatched
      ⟨(runAll graph settings ⟨.empty, start⟩ operations).noted, cancelled⟩
    rwa [houtcome] at hfirst
  · intro again
    rw [← GraphCheck.run_checkScript] at houtcome
    obtain ⟨outcome', hsame, hrecalls⟩ :=
      (GraphCheck.about_checkScript settings analysis).exists_recalls hfit houtcome hwell
    obtain ⟨hof, -⟩ := hrecalls.of_yields (GraphCheck.yields_checkScript settings analysis)
    obtain ⟨after, hrun, hgraph, hentries, hflag⟩ :=
      hrecalls.start_run graph.watched
        (rfl : (Desk.mk desk.state again).state.cache.entries = desk.state.cache.entries)
    rw [GraphCheck.run_checkScript, hsame.eq_recalled hof] at hrun
    have hsecond := hunwatched ⟨desk.state, again⟩
    rw [hrun] at hsecond
    exact ⟨after, hrun, hsecond, hgraph, hentries, hflag⟩

/-- A graph that answers five questions about symbols, and then can no longer be reached. -/
def fadingGraph : KnowledgeGraph Nat where
  findSymbol kind qualifiers asked :=
    let known : Bool := kind == .ofModule || qualifiers == ["numpy", "array"]
    ⟨if asked < 5 then .ok (if known then .found ["numpy"] else .missing)
      else .error (.unavailable "closed"), asked + 1, false⟩
  findMethodSignature _ _ asked := ⟨.error (.unavailable "closed"), asked + 1, false⟩
  findFunctionSignature _ _ asked := ⟨.ok none, asked + 1, false⟩
  close := id

/-- A module is looked up, and one answer is dropped that was never given. -/
def fadingHistory : List Operation := [
  .check ⟨⟨0, .ofImport, "numpy", 1⟩, .ofImport, .ofModule "numpy", none⟩ false,
  .invalidate (.symbol .function "numpy.array")]

/-- What comes of checking the script after that. -/
def fadingOutcome : Except Problem (GraphOutcome Rat) × Desk (Cached (Watched Nat)) :=
  (GraphCheck.checkScript (cachedLookups fadingGraph.watched) Settings.standard arrayScript).start
    ⟨(runAll fadingGraph (Settings.standard : Settings Rat) ⟨.empty, 0⟩ fadingHistory).noted, false⟩

/-- A script is checked again, in a request that was cancelled and on a graph that could no longer
be reached, and comes to what it came to before. -/
theorem rerun_recalled_fadingGraph :
    ∃ outcome desk, fadingOutcome = (.ok outcome, desk) ∧ desk.state.graph.graph = 4 ∧
      (∀ key reason, .asked key (.error (.malformed reason)) ∉ desk.state.graph.events) ∧
      ∃ after, (GraphCheck.checkScript (cachedLookups fadingGraph.watched) Settings.standard
        arrayScript).start ⟨desk.state, true⟩ = (.ok outcome.recalled, after) ∧
          after.state.graph = desk.state.graph := by
  have hok : fadingOutcome.1.toOption.isSome = true := by decide +kernel
  have hasked : fadingOutcome.2.state.graph.graph = 4 := by decide +kernel
  have hwell : fadingOutcome.2.state.graph.events.all Event.isReadable = true := by
    decide +kernel
  rcases houtcome : fadingOutcome with ⟨problem | outcome, desk⟩
  · rw [houtcome] at hok
    cases hok
  · rw [houtcome] at hasked hwell
    have hnone : ∀ key reason,
        .asked key (.error (.malformed reason)) ∉ desk.state.graph.events := by
      intro key reason hmem
      simpa [Event.isReadable] using List.all_eq_true.mp hwell _ hmem
    obtain ⟨after, hrun, -, hgraph, -⟩ := (rerun_recalled fadingGraph Settings.standard 0
      fadingHistory arrayScript false houtcome hnone).2 true
    exact ⟨outcome, desk, rfl, hasked, hnone, after, hrun, hgraph⟩

end Operation

end UsageAudit
