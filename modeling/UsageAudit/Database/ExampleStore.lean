import UsageAudit.Database.Column
import UsageAudit.Database.FullText
import UsageAudit.Database.Pool
import UsageAudit.Database.Tables
import UsageAudit.ExampleSearch
import UsageAudit.Overlap

/-!
# The examples of a database

Examples are searched in two steps. First candidates are drawn, by the index of words or, where there
is none, in the order of their numbers. Then the candidates are compared with the query and the most
similar ones are answered.
-/

namespace UsageAudit.Database

/-- An example as it is answered. -/
structure Candidate where
  content : String
  summary : Option String
  deriving DecidableEq, Repr

/-- All text of a candidate. -/
def Candidate.text (candidate : Candidate) : String :=
  match candidate.summary with
  | some summary => candidate.content ++ "\n" ++ summary
  | none => candidate.content

/-- Reads an example. -/
def readExample (row : ExampleRow) : Except SourceFault Candidate := do
  return ⟨← readText 0 "content" row.content, ← readOptional 1 "summary" row.summary⟩

/-- How many candidates are drawn for each example that is asked for. -/
def candidateFactor : Nat := 8

/-- How many candidates are drawn at least. -/
def leastCandidates : Nat := 32

/-- How many examples are compared where there is no index. -/
def greatestScan : Nat := 2000

/-- The candidates that the index gives for identifiers, the best first. -/
def indexedCandidates (wanted : List String) (limit : Nat) (index : List (Int × IndexedExample))
    (database : Database) : List ExampleRow :=
  let phrases := (wanted.mergeSort fun a b => !decide (b < a)).map fun token =>
    FullText.words token.toList
  let documents := index.map fun (number, entry) =>
    (⟨number, [FullText.words entry.content.chars, FullText.words entry.summary.chars]⟩ :
      FullText.Document Int)
  ((FullText.ranked phrases documents).take limit).filterMap fun number =>
    database.examples.get? number

/-- The candidates for identifiers. -/
def candidates (wanted : List String) (limit : Nat) (database : Database) :
    Except SourceFault (List Candidate) :=
  let rows :=
    match database.index with
    | some index => database.indexedCandidates wanted limit index
    | none => (database.examples.rows.take greatestScan).map Prod.snd
  rows.mapM readExample

variable {α : Type} [Scalar α]

/-- The candidates that are similar enough, the most similar first and no more than asked for. -/
def bestHits (wanted : List String) (topK : Nat) (minSimilarity : α) (found : List Candidate) :
    List (Hit α) :=
  let hits := found.map fun candidate =>
    (⟨candidate.content, Overlap.similarity wanted candidate.text⟩ : Hit α)
  let kept := hits.filter fun hit =>
    Scalar.less 0.0 hit.similarity && Scalar.atMost minSimilarity hit.similarity
  (kept.mergeSort fun a b => Scalar.notAbove b.similarity a.similarity).take topK

/-- Searches for examples through a pool. Where nothing can be found nothing is asked. -/
def search (database : Database) (pool : Pool) (query : String) (topK : Nat) (minSimilarity : α) :
    Except SourceFault (List (Hit α)) :=
  let wanted := Overlap.queryTokens query
  if wanted.isEmpty || topK == 0 then .ok []
  else
    (pool.ask (database.candidates wanted (max (topK * candidateFactor) leastCandidates))).map
      (bestHits wanted topK minSimilarity)

/-- The index of the examples of a database, asked through a pool. -/
def exampleIndex (database : Database) : ExampleIndex α Pool where
  search query topK minSimilarity pool :=
    ⟨database.search pool query topK minSimilarity, pool, false⟩
  close := Pool.close

end UsageAudit.Database
