import UsageAudit.Grounding
import UsageAudit.Proofs.BestHits

/-!
# Filler words

A query is the name that a usage is searched by and some filler words. They are not compared with
examples as long as the name has an identifier that is none of them. A name without one leaves nothing
else to compare, and then examples are answered that hold nothing but filler words.
-/

namespace UsageAudit

open Overlap (Holds fillers queryTokens tokens)

/-- The name that examples of a usage are searched by. -/
def Element.searchedName? : Element → Option String
  | .ofImport e => some e.path
  | .functionCall e => some e.name
  | .methodCall e => some e.method
  | .attributeAccess e => some e.member
  | .classDef _ | .functionDef _ | .variableAssign _ => none

namespace Overlap

/-- Whether a text holds an identifier that is no filler word. -/
def Tells (text token : String) : Prop := Holds text token ∧ token ∉ fillers

/-- What is compared of a query: the filler words only if there is nothing else. -/
theorem mem_queryTokens {query token : String} : token ∈ queryTokens query ↔
    Tells query token ∨ Holds query token ∧ ∀ other, ¬Tells query other := by
  have htelling (other : String) : other ∈ (tokens query).filter (fun t => !fillers.contains t) ↔
      Tells query other := by
    simp [Tells, mem_tokens_iff]
  simp only [queryTokens, List.isEmpty_iff]
  split
  · rename_i hnone
    simp only [hnone, List.not_mem_nil, false_iff] at htelling
    simp [htelling, mem_tokens_iff]
  · rename_i hsome
    obtain ⟨other, hother⟩ := List.exists_mem_of_ne_nil _ hsome
    rw [htelling]
    exact ⟨.inl, Or.rec id fun h => absurd ((htelling other).mp hother) (h.2 other)⟩

end Overlap

open Overlap (Tells)

/-- A query is a name and filler words. -/
theorem Element.query?_eq {element : Element} {name query : String}
    (hname : element.searchedName? = some name) (hquery : element.query? = some query) :
    ∃ words : String, query = name ++ " " ++ words ∧
      (∀ token ∈ tokens words, token ∈ fillers) ∧ "example" ∈ tokens words := by
  cases element with
  | ofImport e =>
    cases hname
    cases hquery
    exact ⟨"import usage example", by rw [String.append_assoc]; rfl, by decide, by decide⟩
  | functionCall e =>
    cases hname
    cases hquery
    exact ⟨"function call example", by rw [String.append_assoc]; rfl, by decide, by decide⟩
  | methodCall e =>
    cases hname
    cases hquery
    exact ⟨"method call example", by rw [String.append_assoc]; rfl, by decide, by decide⟩
  | attributeAccess e =>
    cases hname
    cases hquery
    exact ⟨"attribute usage example", by rw [String.append_assoc]; rfl, by decide, by decide⟩
  | classDef e => cases hname
  | functionDef e => cases hname
  | variableAssign e => cases hname

section Query

variable {element : Element} {name query : String} (hname : element.searchedName? = some name)
  (hquery : element.query? = some query)
include hname hquery

/-- Only the name can add to a query what is no filler word. -/
theorem Element.tells_query (token : String) : Tells query token ↔ Tells name token := by
  obtain ⟨words, rfl, hfillers, -⟩ := Element.query?_eq hname hquery
  have hwords : Holds words token → token ∈ fillers :=
    fun h => hfillers token (Overlap.mem_tokens_iff.mpr h)
  rw [Tells, Overlap.holds_append rfl (by decide), Tells]
  constructor
  · rintro ⟨hname | hword, hnot⟩
    · exact ⟨hname, hnot⟩
    · exact absurd (hwords hword) hnot
  · exact fun ⟨hname, hnot⟩ => ⟨.inl hname, hnot⟩

/-- Every query asks for an example. -/
theorem Element.holds_query_example : Holds query "example" := by
  obtain ⟨words, rfl, -, hexample⟩ := Element.query?_eq hname hquery
  exact (Overlap.holds_append rfl (by decide)).mpr (.inr (Overlap.mem_tokens_iff.mp hexample))

end Query

namespace Database

variable {α : Type} [Scalar α]

/-- What a search keeps holds an identifier of the query that is no filler word if the query has one. -/
theorem AreBest.tells {query : String} {topK : Nat} {least : α} {found best : List Candidate}
    (hbest : AreBest query topK least found best) (htells : ∃ token, Tells query token) :
    ∀ candidate ∈ best, ∃ token, Tells query token ∧ candidate.Holds token := by
  intro candidate hmem
  obtain ⟨token, htoken, hholds⟩ := Candidate.held_pos_iff.mp (hbest.similar candidate hmem).1
  refine ⟨token, ?_, hholds⟩
  rcases Overlap.mem_queryTokens.mp htoken with htelling | ⟨-, hnone⟩
  · exact htelling
  · exact absurd htells.choose_spec (hnone _)

/-- A database with one example, and no index. -/
def ofExample (content : String) : Database :=
  { empty with examples := ⟨[(1, ⟨.text content, none⟩)], 1⟩ }

/-- A search keeps the only example if that holds something that is compared. -/
theorem chosen_singleton (hcompares : Scalar.Compares α) {query : String}
    (hshares : Scalar.Shares α (queryTokens query).toFinset.card) {topK : Nat}
    {candidate : Candidate} {token : String} (htopK : 1 ≤ topK) (htoken : token ∈ queryTokens query)
    (hholds : candidate.Holds token) :
    chosen query topK (0.0 : α) [candidate] = [candidate] := by
  have hpos : Scalar.less 0.0 (candidate.share query : α) = true :=
    (Candidate.less_share_iff hshares candidate).mpr
      (Candidate.held_pos_iff.mpr ⟨token, htoken, hholds⟩)
  have hkept : [candidate].filter (Candidate.isKept query (0.0 : α)) = [candidate] := by
    simp [Candidate.isKept, hpos, hcompares.atMost_of_less _ _ hpos]
  rw [chosen, hkept, List.mergeSort_singleton, List.take_of_length_le htopK]

/-- What a search keeps of the examples for a usage always shares with the query what is no filler
word if the name of the usage has an identifier that is none. Otherwise an example that holds nothing
but filler words can be kept. -/
theorem search_tells_iff (hcompares : Scalar.Compares α) {element : Element} {name query : String}
    (hname : element.searchedName? = some name) (hquery : element.query? = some query)
    (hshares : Scalar.Shares α (queryTokens query).toFinset.card) :
    (∃ token, Tells name token) ↔
      ∀ (database : Database) (pool : Pool) (topK : Nat) (least : α) (found : List Candidate),
        pool.ask (database.candidates (queryTokens query)
          (max (topK * candidateFactor) leastCandidates)) = .ok found →
        ∃ best, AreBest query topK least found best ∧
          database.search pool query topK least = .ok (best.map (Candidate.hit query)) ∧
          ∀ candidate ∈ best, ∃ token, Tells query token ∧ candidate.Holds token := by
  constructor
  · rintro ⟨token, htoken⟩ database pool topK least found hfound
    have hbest := areBest_chosen hcompares hshares topK least found
    have htells : ∃ token, Tells query token :=
      ⟨token, (Element.tells_query hname hquery token).mpr htoken⟩
    exact ⟨_, hbest, search_of_ask hshares hfound, hbest.tells htells⟩
  · intro h
    by_contra hnone
    rw [not_exists] at hnone
    have hexample : "example" ∈ queryTokens query := by
      refine Overlap.mem_queryTokens.mpr (.inr ⟨Element.holds_query_example hname hquery, ?_⟩)
      exact fun other hother => hnone other ((Element.tells_query hname hquery other).mp hother)
    have hholds : (⟨"example", none⟩ : Candidate).Holds "example" :=
      .inl (Overlap.mem_tokens_iff.mp (by decide))
    have hfound : (Pool.ofSize "" 1).ask ((ofExample "example").candidates (queryTokens query)
      (max (1 * candidateFactor) leastCandidates)) = .ok [⟨"example", none⟩] := rfl
    obtain ⟨best, -, hsearch, htells⟩ := h _ _ 1 0.0 _ hfound
    rw [search_of_ask hshares hfound, chosen_singleton hcompares hshares le_rfl hexample hholds,
      Except.ok.injEq] at hsearch
    obtain ⟨candidate, rest, rfl⟩ : ∃ candidate rest, best = candidate :: rest :=
      List.exists_cons_of_ne_nil fun hnil => by simp [hnil] at hsearch
    obtain ⟨token, htoken, -⟩ := htells candidate List.mem_cons_self
    exact hnone token ((Element.tells_query hname hquery token).mp htoken)

/-- A call whose name is an identifier of two letters is never grounded by filler words, in doubles. -/
theorem search_tells_iff_name :
    let element : Element := .functionCall ⟨"go", 0, 0, .empty, 1⟩
    element.searchedName? = some "go" ∧ element.query? = some "go function call example" ∧
    Tells "go" "go" ∧
    ∀ (database : Database) (pool : Pool) (topK : Nat) (least : Float) (found : List Candidate),
      pool.ask (database.candidates (queryTokens "go function call example")
        (max (topK * candidateFactor) leastCandidates)) = .ok found →
      ∃ best, AreBest "go function call example" topK least found best ∧
        database.search pool "go function call example" topK least =
          .ok (best.map (Candidate.hit "go function call example")) ∧
        ∀ candidate ∈ best, ∃ token,
          Tells "go function call example" token ∧ candidate.Holds token := by
  have htells : Tells "go" "go" := ⟨Overlap.mem_tokens_iff.mp (by decide), by decide⟩
  have hshares : Scalar.Shares Float (queryTokens "go function call example").toFinset.card :=
    Double.shares (by decide +kernel)
  exact ⟨rfl, rfl, htells, (@search_tells_iff _ _ Double.compares
    (.functionCall ⟨"go", 0, 0, .empty, 1⟩) _ _ rfl rfl hshares).mp ⟨"go", htells⟩⟩

/-- The call of a function with a name of one letter is grounded by an example that holds nothing but a
filler word. -/
theorem call_of_letter_grounded :
    (Element.functionCall ⟨"f", 0, 0, .empty, 1⟩).query? = some "f function call example" ∧
    "f" ∉ fillers ∧
    (ofExample "def function(): pass").search (Pool.ofSize "graph.db" 1) "f function call example" 5
      (.finite 0) = .ok [⟨"def function(): pass", Extended.finite (1 / 3)⟩] ∧
    ∀ token, Overlap.Holds "f function call example" token →
      Overlap.Holds "def function(): pass" token → token ∈ fillers := by
  refine ⟨rfl, by decide, ?_, ?_⟩
  · have hholds : (⟨"def function(): pass", none⟩ : Candidate).Holds "function" :=
      .inl (Overlap.mem_tokens_iff.mp (by decide))
    have hshare : (⟨"def function(): pass", none⟩ : Candidate).share "f function call example" =
        Extended.finite (1 / 3) := by decide +kernel
    have hsearch := @search_of_ask Extended _ (ofExample "def function(): pass")
      (Pool.ofSize "graph.db" 1) "f function call example" 5 0.0 [⟨"def function(): pass", none⟩]
      (Extended.shares _) rfl
    rw [← Extended.zero_eq, hsearch, chosen_singleton Extended.compares (Extended.shares _)
      (by decide) (by decide) hholds, List.map_singleton, Candidate.hit, hshare]
  · intro token hquery _
    have hall : ∀ token ∈ tokens "f function call example", token ∈ fillers := by decide
    exact hall token (Overlap.mem_tokens_iff.mpr hquery)

end Database

end UsageAudit
