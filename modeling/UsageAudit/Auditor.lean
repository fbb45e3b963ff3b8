import UsageAudit.ExampleSearch
import UsageAudit.GraphCheck
import UsageAudit.Report

/-!
# Auditors

An auditor keeps the cache of answers and the states of its sources between requests. A request takes
a script through its phases: it is analysed, its usages are looked up in the graph and grounded by
examples, and both outcomes are put together in a report. The first problem ends a request; of two,
that of the graph counts. A closed auditor takes no more requests.
-/

namespace UsageAudit

/-- What is done for a request. -/
inductive Phase where
  | analyze | graph | semantic | degraded | fuse
  deriving DecidableEq, Repr

namespace Phase

/-- The name of a phase. -/
def name : Phase → String
  | .analyze => "analyze"
  | .graph => "graph_validate"
  | .semantic => "semantic_validate"
  | .degraded => "degraded"
  | .fuse => "fuse"

/-- All phases. -/
def all : List Phase := [.analyze, .graph, .semantic, .degraded, .fuse]

end Phase

/-- The answer to a request. -/
inductive Response (α : Type) where
  | success (report : Report α)
  | failure (path : String) (problem : Problem) (phase : Phase)

/-- The sources that an auditor asks. -/
structure Sources (α σ τ : Type) where
  graph : KnowledgeGraph σ
  examples : Option (ExampleIndex α τ)

/-- What an auditor keeps between requests. -/
structure Auditor (σ τ : Type) where
  cache : Cache
  graph : σ
  examples : τ
  closed : Bool

/-- Carries a part of a request out. -/
def Request.start {σ α : Type} (request : Request σ α) (desk : Desk σ) : Except Problem α × Desk σ :=
  (StateT.run (ExceptT.run request) desk).run

namespace Auditor

variable {α σ τ : Type}

/-- An auditor that has done nothing yet. -/
def fresh (graph : σ) (examples : τ) : Auditor σ τ := ⟨.empty, graph, examples, false⟩

/-- The report on what has come of both sides, or the problem that ends the request. -/
def conclude [Scalar α] (settings : Settings α) (options : ReportOptions) (analysis : Analysis)
    (graph : Except Problem (GraphOutcome α)) (semantic : Except Problem (SemanticOutcome α))
    (cancelled : Bool) : Except (Problem × Phase) (Report α) :=
  match graph, semantic with
  | .error problem, _ => .error (problem, .graph)
  | _, .error problem => .error (problem, .semantic)
  | .ok graph, .ok semantic =>
    -- The request is looked at once more before the report is put together.
    if cancelled then .error (.cancelled, .fuse)
    else
      .ok (Report.build settings analysis graph semantic (Fusion.fuse settings graph semantic)
        options)

/-- Checks an analysed script on both sides, and reports. `cancelled` says whether the request has been
cancelled already. -/
def examine [Scalar α] (sources : Sources α σ τ) (settings : Settings α) (options : ReportOptions)
    (analysis : Analysis) (cancelled : Bool) (auditor : Auditor σ τ) :
    Except (Problem × Phase) (Report α) × Auditor σ τ :=
  let (graph, desk) :=
    (GraphCheck.checkScript (cachedLookups sources.graph) settings analysis).start
      ⟨⟨auditor.cache, auditor.graph⟩, cancelled⟩
  -- The example side knows whether the request was cancelled on the graph side.
  let (semantic, after) :=
    (groundWith sources.examples settings analysis).start ⟨auditor.examples, desk.cancelled⟩
  let auditor :=
    { auditor with
      cache := desk.state.cache, graph := desk.state.graph, examples := after.state }
  (conclude settings options analysis graph semantic after.cancelled, auditor)

/-- Takes a script through all phases. -/
def run [Scalar α] (sources : Sources α σ τ) (settings : Settings α) (options : ReportOptions)
    (script path : String) (cancelled : Bool) (auditor : Auditor σ τ) :
    Except (Problem × Phase) (Report α) × Auditor σ τ :=
  if auditor.closed then (.error (.unavailable "checker is closed", .analyze), auditor)
  else
    match Analysis.ofScript script path with
    | .error error => (.error (.unparsable error, .analyze), auditor)
    | .ok analysis =>
      if cancelled then (.error (.cancelled, .analyze), auditor)
      else examine sources settings options analysis cancelled auditor

/-- Answers a request for a script. -/
def check [Scalar α] (sources : Sources α σ τ) (settings : Settings α) (options : ReportOptions)
    (script path : String) (cancelled : Bool) (auditor : Auditor σ τ) :
    Response α × Auditor σ τ :=
  match auditor.run sources settings options script path cancelled with
  | (.ok report, auditor) => (.success report, auditor)
  | (.error (problem, phase), auditor) => (.failure path problem phase, auditor)

/-- Answers a request for a file, from what came of reading it. -/
def checkFile [Scalar α] (sources : Sources α σ τ) (settings : Settings α) (options : ReportOptions)
    (content : Except FileFault String) (path : String) (auditor : Auditor σ τ) :
    Response α × Auditor σ τ :=
  match content with
  | .ok script => auditor.check sources settings options script path false
  | .error fault => (.failure path (.unreadable fault) .analyze, auditor)

/-- Closes the sources and drops all answers; once closed, nothing more is done. -/
def close (sources : Sources α σ τ) (auditor : Auditor σ τ) : Auditor σ τ :=
  if auditor.closed then auditor
  else
    { cache := auditor.cache.clear
      graph := sources.graph.close auditor.graph
      examples :=
        match sources.examples with
        | some index => index.close auditor.examples
        | none => auditor.examples
      closed := true }

end Auditor

end UsageAudit
