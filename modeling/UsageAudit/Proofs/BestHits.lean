import Mathlib.Data.Finset.Card
import Mathlib.Data.List.Infix
import UsageAudit.Database.ExampleStore
import UsageAudit.Proofs.DoubleShares
import UsageAudit.Proofs.GraphFindings
import UsageAudit.Proofs.Identifiers
import UsageAudit.Proofs.ModuleLookups

/-!
# The best hits of a search

A search answers the best of the candidates that the database hands back. A candidate counts by the
share of the identifiers of the query that it holds, in its content or in its summary; those that hold
none or too few are dropped, the others are sorted, and no more are answered than were asked for. What
is left out is no better than what is answered.
-/

namespace UsageAudit

open Overlap (Holds queryTokens tokens)

variable {α : Type} [Scalar α]

/-- Whether a number is below a bound. No number reaches a bound that is none. -/
def Scalar.IsBelow (x bound : α) : Prop := less x bound = true ∨ atMost bound bound = false

/-- A number that is not at least a bound is below it. -/
theorem Scalar.Compares.isBelow (hcompares : Compares α) {x bound : α} (hx : atMost x x = true)
    (h : atMost bound x = false) : IsBelow x bound := by
  cases hbound : atMost bound bound with
  | false => exact .inr hbound
  | true => exact .inl (hcompares.less_of_not_atMost x bound hx hbound h)

namespace Overlap

/-- No identifier of a query counts twice. -/
theorem nodup_queryTokens (query : String) : (queryTokens query).Nodup := by
  have hall : (tokens query).Nodup := Database.nodup_eraseDups _
  unfold queryTokens
  dsimp only
  split
  · exact hall
  · exact hall.filter _

end Overlap

namespace Database

/-- Whether a candidate holds an identifier, in its content or in its summary. -/
def Candidate.Holds (candidate : Candidate) (token : String) : Prop :=
  Overlap.Holds candidate.content token ∨
    ∃ summary ∈ candidate.summary, Overlap.Holds summary token

instance (candidate : Candidate) : DecidablePred candidate.Holds :=
  fun _ => inferInstanceAs (Decidable (_ ∨ ∃ summary ∈ candidate.summary, _))

/-- How many of the identifiers of a query a candidate holds. -/
def Candidate.held (query : String) (candidate : Candidate) : Nat :=
  ((queryTokens query).toFinset.filter candidate.Holds).card

/-- The share of the identifiers of a query that a candidate holds. -/
def Candidate.share (query : String) (candidate : Candidate) : α :=
  Scalar.share (candidate.held query) (queryTokens query).toFinset.card

/-- A candidate as it is answered. -/
def Candidate.hit (query : String) (candidate : Candidate) : Hit α :=
  ⟨candidate.content, candidate.share query⟩

/-- Whether a candidate is similar enough to a query to be answered. -/
def Candidate.isKept (query : String) (least : α) (candidate : Candidate) : Bool :=
  Scalar.less 0.0 (candidate.share query : α) && Scalar.atMost least (candidate.share query)

variable (α) in
/-- Whether two candidates are as similar to a query. -/
def Candidate.alike (query : String) (candidate other : Candidate) : Bool :=
  Scalar.atMost (candidate.share query : α) (other.share query) &&
    Scalar.atMost (other.share query : α) (candidate.share query)

variable (α) in
/-- Whether a candidate is not less similar to a query than another. -/
def Candidate.before (query : String) (candidate other : Candidate) : Bool :=
  Scalar.notAbove (other.share query : α) (candidate.share query)

/-- The candidates that are answered. -/
def chosen (query : String) (topK : Nat) (least : α) (found : List Candidate) : List Candidate :=
  ((found.filter (Candidate.isKept query least)).mergeSort (Candidate.before α query)).take topK

/-- Whether candidates are the best of those that were found. -/
structure AreBest (query : String) (topK : Nat) (least : α) (found best : List Candidate) :
    Prop where
  length_le : best.length ≤ topK
  similar : ∀ candidate ∈ best, 0 < candidate.held query ∧
    Scalar.less 0.0 (candidate.share query : α) = true ∧
    Scalar.atMost (candidate.share query : α) 1.0 = true ∧
    Scalar.atMost least (candidate.share query) = true
  ordered : best.Pairwise fun candidate later =>
    Scalar.atMost (later.share query : α) (candidate.share query) = true
  /-- Those of the same similarity stay in the order in which they were found, and the first of them
  are answered first. -/
  stable : ∀ reference : Candidate, best.filter (Candidate.alike α query reference) <+:
    found.filter (Candidate.alike α query reference)
  /-- What is left out holds nothing of the query, or too little, or is no better than all that is
  answered. -/
  leftOut : ∃ others, (best ++ others).Perm found ∧ ∀ other ∈ others,
    other.held query = 0 ∨ Scalar.IsBelow (other.share query) least ∨
      (best.length = topK ∧ ∀ candidate ∈ best,
        Scalar.atMost (other.share query : α) (candidate.share query) = true)

/-! ## Similarity -/

/-- The text of a candidate holds what the candidate does. -/
theorem Candidate.holds_iff (candidate : Candidate) (token : String) :
    candidate.Holds token ↔ Overlap.Holds candidate.text token := by
  obtain ⟨content, summary⟩ := candidate
  have hnewline : "\n".toList = ['\n'] := rfl
  cases summary with
  | none => simp [Holds, text]
  | some summary => simp [Holds, text, Overlap.holds_append hnewline (by decide)]

/-- A candidate holds at most all. -/
theorem Candidate.held_le (query : String) (candidate : Candidate) :
    candidate.held query ≤ (queryTokens query).toFinset.card :=
  Finset.card_filter_le _ _

/-- A candidate that holds some of the identifiers holds one. -/
theorem Candidate.held_pos_iff {query : String} {candidate : Candidate} :
    0 < candidate.held query ↔ ∃ token ∈ queryTokens query, candidate.Holds token := by
  rw [held, Finset.card_pos]
  simp [Finset.Nonempty]

/-- The similarity of a candidate is the share that it holds. -/
theorem Candidate.similarity_text (query : String) (candidate : Candidate) :
    Overlap.similarity (queryTokens query) candidate.text = (candidate.share query : α) := by
  have hcount : (queryTokens query).toFinset.card = (queryTokens query).length :=
    List.toFinset_card_of_nodup (Overlap.nodup_queryTokens query)
  have hpresent : candidate.held query =
      ((queryTokens query).filter fun token => (tokens candidate.text).contains token).length := by
    rw [held, ← List.toFinset_card_of_nodup ((Overlap.nodup_queryTokens query).filter _)]
    congr 1
    ext token
    simp [candidate.holds_iff, Overlap.mem_tokens_iff]
  simp only [Overlap.similarity, share, Scalar.share, hcount, hpresent, List.isEmpty_iff,
    List.length_eq_zero_iff]

/-- A summary takes nothing away of what a candidate holds. -/
theorem Candidate.held_le_held_summary (query content summary : String) :
    (⟨content, none⟩ : Candidate).held query ≤ (⟨content, some summary⟩ : Candidate).held query := by
  rw [held, held]
  apply Finset.card_le_card
  intro token hmem
  rw [Finset.mem_filter] at hmem ⊢
  exact ⟨hmem.1, .inl (by simpa [Holds] using hmem.2)⟩

/-- What is answered are the candidates that are chosen. -/
theorem bestHits_eq (query : String) (topK : Nat) (least : α) (found : List Candidate) :
    bestHits (queryTokens query) topK least found =
      (chosen query topK least found).map (Candidate.hit query) := by
  have hhits : (found.map fun candidate =>
      (⟨candidate.content, Overlap.similarity (queryTokens query) candidate.text⟩ : Hit α)) =
      found.map (Candidate.hit query) :=
    List.map_congr_left fun candidate _ => by rw [candidate.similarity_text]; rfl
  have hkept : (fun hit : Hit α =>
      Scalar.less 0.0 hit.similarity && Scalar.atMost least hit.similarity) ∘ Candidate.hit query =
      Candidate.isKept query least := by
    funext candidate
    rw [Function.comp_apply, Candidate.isKept, Candidate.hit]
  simp only [bestHits, chosen]
  rw [hhits, List.filter_map, hkept, List.map_take, List.map_mergeSort]
  intro first _ second _
  rw [Candidate.before, Candidate.hit, Candidate.hit]

/-! ## Choice -/

/-- The order of similarities is transitive. -/
theorem Candidate.before_trans (hcompares : Scalar.Compares α) (query : String) (a b c : Candidate)
    (h : Candidate.before α query a b = true) (h' : Candidate.before α query b c = true) :
    Candidate.before α query a c = true :=
  hcompares.trans _ _ _ h' h

/-- Any two similarities can be compared. -/
theorem Candidate.before_total (hcompares : Scalar.Compares α) (query : String) (a b : Candidate) :
    (Candidate.before α query a b || Candidate.before α query b a) = true :=
  hcompares.total _ _

section Order

variable {query : String} (hcompares : Scalar.Compares α)
  (hshares : Scalar.Shares α (queryTokens query).toFinset.card)
include hshares

/-- Of two candidates the similarities are compared in the same way in either order. -/
theorem Candidate.before_eq (candidate other : Candidate) :
    Candidate.before α query candidate other =
      Scalar.atMost (other.share query : α) (candidate.share query) :=
  hshares.notAbove_eq _ (other.held_le query) _ (candidate.held_le query)

/-- A candidate that holds nothing is not similar to a query, and any other is. -/
theorem Candidate.less_share_iff (candidate : Candidate) :
    Scalar.less 0.0 (candidate.share query : α) = true ↔ 0 < candidate.held query := by
  constructor
  · intro h
    apply Nat.pos_of_ne_zero
    intro hnothing
    rw [share, hnothing, hshares.nothing] at h
    cases h
  · exact hshares.positive (candidate.held query) (candidate.held_le query)

/-- A candidate that is kept holds some of the query, and enough of it. -/
theorem Candidate.similar_of_isKept {least : α} {candidate : Candidate}
    (h : candidate.isKept query least = true) :
    0 < candidate.held query ∧ Scalar.less 0.0 (candidate.share query : α) = true ∧
      Scalar.atMost (candidate.share query : α) 1.0 = true ∧
      Scalar.atMost least (candidate.share query) = true := by
  obtain ⟨hpositive, hleast⟩ := Bool.and_eq_true_iff.mp h
  exact ⟨(Candidate.less_share_iff hshares candidate).mp hpositive, hpositive,
    hshares.atMost_one _ (candidate.held_le query), hleast⟩

/-- Candidates are as similar as each other if they can be in either order. -/
theorem Candidate.alike_iff {candidate other : Candidate} :
    Candidate.alike α query candidate other = true ↔
      Candidate.before α query other candidate = true ∧
        Candidate.before α query candidate other = true := by
  rw [alike, Bool.and_eq_true, Candidate.before_eq hshares, Candidate.before_eq hshares]

include hcompares

/-- Candidates that are as similar as the same one can be in either order. -/
theorem Candidate.before_of_alike {reference candidate other : Candidate}
    (h : Candidate.alike α query reference candidate = true)
    (h' : Candidate.alike α query reference other = true) :
    Candidate.before α query candidate other = true := by
  obtain ⟨hbefore, -⟩ := (Candidate.alike_iff hshares).mp h
  obtain ⟨-, hafter⟩ := (Candidate.alike_iff hshares).mp h'
  exact Candidate.before_trans hcompares query _ _ _ hbefore hafter

/-- Candidates that are as similar as the same one have the same share. -/
theorem Candidate.share_eq_of_alike {reference candidate : Candidate}
    (h : Candidate.alike α query reference candidate = true) :
    (candidate.share query : α) = reference.share query := by
  obtain ⟨hbefore, hafter⟩ := (Candidate.alike_iff hshares).mp h
  exact hcompares.antisymm _ _ hafter hbefore

/-- Whether a candidate is kept depends on its similarity, so that those of one similarity are kept or
dropped together. -/
theorem filter_isKept_prefix (least : α) (reference : Candidate) (found : List Candidate) :
    (found.filter (Candidate.isKept query least)).filter (Candidate.alike α query reference) <+:
      found.filter (Candidate.alike α query reference) := by
  have hkept (candidate : Candidate) (h : Candidate.alike α query reference candidate = true) :
      candidate.isKept query least = reference.isKept query least := by
    simp only [Candidate.isKept, Candidate.share_eq_of_alike hcompares hshares h]
  rw [List.filter_filter]
  cases hreference : reference.isKept query least with
  | true =>
    have hsame (candidate : Candidate) : (Candidate.alike α query reference candidate &&
        candidate.isKept query least) = Candidate.alike α query reference candidate := by
      cases halike : Candidate.alike α query reference candidate with
      | true => rw [hkept candidate halike, hreference, Bool.and_true]
      | false => rw [Bool.false_and]
    rw [List.filter_congr fun candidate _ => hsame candidate]
  | false =>
    rw [List.filter_eq_nil_iff.mpr]
    · exact List.nil_prefix
    · intro candidate _ h
      obtain ⟨halike, hcandidate⟩ := Bool.and_eq_true_iff.mp h
      rw [hkept candidate halike, hreference] at hcandidate
      cases hcandidate

/-- Sorting leaves candidates of the same similarity as they stand. -/
theorem filter_mergeSort_before (reference : Candidate) (found : List Candidate) :
    (found.mergeSort (Candidate.before α query)).filter (Candidate.alike α query reference) =
      found.filter (Candidate.alike α query reference) := by
  rw [filter_mergeSort (Candidate.before_trans hcompares query)
    (Candidate.before_total hcompares query)]
  apply List.mergeSort_of_pairwise
  apply List.pairwise_of_forall_mem_list
  intro first hfirst second hsecond
  exact Candidate.before_of_alike hcompares hshares (List.mem_filter.mp hfirst).2
    (List.mem_filter.mp hsecond).2

/-- A candidate that is not kept holds nothing of the query, or too little. -/
theorem Candidate.of_isKept_eq_false {least : α} {candidate : Candidate}
    (h : candidate.isKept query least = false) :
    candidate.held query = 0 ∨ Scalar.IsBelow (candidate.share query) least := by
  rcases Bool.and_eq_false_iff.mp h with hnothing | hbelow
  · left
    by_contra hsome
    rw [(Candidate.less_share_iff hshares candidate).mpr (Nat.pos_of_ne_zero hsome)] at hnothing
    cases hnothing
  · have hnumber := hshares.mono _ (candidate.held_le query) _ le_rfl
    exact .inr (hcompares.isBelow hnumber hbelow)

/-- Sorting puts candidates in the order of their similarities. -/
theorem pairwise_mergeSort_before (found : List Candidate) :
    (found.mergeSort (Candidate.before α query)).Pairwise fun candidate later =>
      Scalar.atMost (later.share query : α) (candidate.share query) = true := by
  have hpairwise := List.pairwise_mergeSort (Candidate.before_trans hcompares query)
    (Candidate.before_total hcompares query) found
  exact hpairwise.imp fun {candidate later} h => by rwa [Candidate.before_eq hshares] at h

/-- The candidates that are chosen are the best of those that were found. -/
theorem areBest_chosen (topK : Nat) (least : α) (found : List Candidate) :
    AreBest query topK least found (chosen query topK least found) := by
  set kept := found.filter (Candidate.isKept query least) with hkept
  set sorted := kept.mergeSort (Candidate.before α query) with hsorted
  have hchosen : chosen query topK least found = sorted.take topK := rfl
  have hperm : sorted.Perm kept := List.mergeSort_perm ..
  have hordered := pairwise_mergeSort_before hcompares hshares kept
  have hsplit : sorted.take topK ++ sorted.drop topK = sorted := List.take_append_drop ..
  rw [hchosen]
  refine ⟨List.length_take_le _ _, ?_, hordered.sublist (List.take_sublist _ _), ?_, ?_⟩
  · intro candidate hmem
    have hmem' : candidate ∈ kept := hperm.subset ((List.take_sublist _ _).subset hmem)
    exact Candidate.similar_of_isKept hshares (List.mem_filter.mp hmem').2
  · intro reference
    calc
      _ <+: sorted.filter (Candidate.alike α query reference) :=
        (List.take_prefix topK sorted).filter _
      _ = kept.filter (Candidate.alike α query reference) :=
        filter_mergeSort_before hcompares hshares reference kept
      _ <+: _ := filter_isKept_prefix hcompares hshares least reference found
  · refine ⟨sorted.drop topK ++ found.filter fun candidate => !candidate.isKept query least, ?_, ?_⟩
    · rw [← List.append_assoc, hsplit]
      exact (hperm.append_right _).trans (List.filter_append_perm _ found)
    · intro other hmem
      rcases List.mem_append.mp hmem with hcut | hdropped
      · refine .inr (.inr ⟨?_, ?_⟩)
        · have hlength := List.length_pos_of_mem hcut
          rw [List.length_drop] at hlength
          rw [List.length_take]
          omega
        · rw [← hsorted, ← hsplit] at hordered
          exact fun candidate hbest => (List.pairwise_append.mp hordered).2.2 _ hbest _ hcut
      · have hnot : other.isKept query least = false := by
          simpa using (List.mem_filter.mp hdropped).2
        exact (Candidate.of_isKept_eq_false hcompares hshares hnot).imp_right .inl

end Order

/-! ## Searches -/

/-- What a search answers, given what the database hands back. Where nothing is asked, nothing that
the database could have handed back would have been answered. -/
theorem search_of_ask {database : Database} {pool : Pool} {query : String} {topK : Nat} {least : α}
    {found : List Candidate} (hshares : Scalar.Shares α (queryTokens query).toFinset.card)
    (hfound : pool.ask (database.candidates (queryTokens query)
      (max (topK * candidateFactor) leastCandidates)) = .ok found) :
    database.search pool query topK least =
      .ok ((chosen query topK least found).map (Candidate.hit query)) := by
  rw [← bestHits_eq, search, hfound]
  split
  · rename_i hnothing
    rcases Bool.or_eq_true_iff.mp hnothing with hwanted | htopK
    · have hkept : found.filter (Candidate.isKept query least) = [] := by
        rw [List.filter_eq_nil_iff]
        intro candidate _ hkept
        obtain ⟨hpositive, -⟩ := Bool.and_eq_true_iff.mp hkept
        obtain ⟨token, htoken, -⟩ := Candidate.held_pos_iff.mp
          ((Candidate.less_share_iff hshares candidate).mp hpositive)
        simp [List.isEmpty_iff.mp hwanted] at htoken
      simp [bestHits_eq, chosen, hkept]
    · simp [bestHits, beq_iff_eq.mp htopK]
  · rw [Except.map]

/-- A search answers the best of the candidates that the database hands back, each with the share of
the identifiers of the query that it holds. Content and summary hold together what they hold apart, so
that no summary makes a candidate less similar. Of the numbers that shares are computed in no more is
used than the laws of their order, which hold of doubles for any query whose identifiers are counted
by a word of the machine. -/
theorem search_answers_best (hcompares : Scalar.Compares α) (query : String)
    (hshares : Scalar.Shares α (queryTokens query).toFinset.card) (topK : Nat) (least : α) :
    (∀ (database : Database) (pool : Pool) (found : List Candidate),
      pool.ask (database.candidates (queryTokens query)
        (max (topK * candidateFactor) leastCandidates)) = .ok found →
      ∃ best, AreBest query topK least found best ∧
        database.search pool query topK least = .ok (best.map (Candidate.hit query))) ∧
    (∀ content summary token : String, Overlap.Holds (content ++ "\n" ++ summary) token ↔
      Overlap.Holds content token ∨ Overlap.Holds summary token) ∧
    ∀ content summary : String,
      Scalar.atMost ((⟨content, none⟩ : Candidate).share query : α)
        ((⟨content, some summary⟩ : Candidate).share query) = true := by
  refine ⟨?_, ?_, ?_⟩
  · intro database pool found hfound
    exact ⟨_, areBest_chosen hcompares hshares topK least found, search_of_ask hshares hfound⟩
  · intro content summary token
    exact Overlap.holds_append rfl (by decide)
  · intro content summary
    exact hshares.mono _ (Candidate.held_le query _) _
      (Candidate.held_le_held_summary query content summary)

/-- One of two examples that resemble the query is answered, in doubles. -/
theorem search_answers_best_of_two :
    let rows : List (Int × ExampleRow) :=
      [(1, ⟨.text "render(page)", none⟩), (2, ⟨.text "page", some (.text "to render a page")⟩)]
    let database : Database := { Database.empty with examples := ⟨rows, 2⟩ }
    let found : List Candidate := [⟨"render(page)", none⟩, ⟨"page", some "to render a page"⟩]
    let pool := Pool.ofSize "graph.db" 1
    pool.ask (database.candidates (queryTokens "render page") (max (1 * candidateFactor)
      leastCandidates)) = .ok found ∧
    ∃ best, AreBest "render page" 1 (0.1 : Float) found best ∧
      database.search pool "render page" 1 (0.1 : Float) =
        .ok (best.map (Candidate.hit "render page")) := by
  intro rows database found pool
  have hfound : pool.ask (database.candidates (queryTokens "render page")
      (max (1 * candidateFactor) leastCandidates)) = .ok found := by rfl
  have hshares : Scalar.Shares Float (queryTokens "render page").toFinset.card :=
    Double.shares (by decide +kernel)
  obtain ⟨hanswers, -⟩ := search_answers_best Double.compares "render page" hshares 1 0.1
  exact ⟨hfound, hanswers database pool found hfound⟩

end Database

end UsageAudit
