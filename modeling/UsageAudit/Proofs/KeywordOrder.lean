import UsageAudit.Proofs.CallBinding

/-!
# Keywords in another order

The arguments that a call gives by keyword are bound one after the other, and one that is bound can
make a later one count as given twice. Still their order says nothing of the call: two keywords
leave the same binding in either order, up to the order of its entries, and so do all of them in any
order. So the verdict on the arguments is the same, but for the order in which it lists them.
-/

namespace UsageAudit

namespace Binding

/-- Whether two bindings are the same up to order. Where a parameter is given twice, only the names
of those that are bound count, since the first argument stays bound. -/
structure Rearranges (binding binding' : Binding) : Prop where
  keys : binding.bound.keys.Perm binding'.bound.keys
  excess : binding.excess = binding'.excess
  duplicates : binding.duplicates.Perm binding'.duplicates
  unexpected : binding.unexpected.Perm binding'.unexpected
  bound : binding.duplicates = [] → binding.bound.Perm binding'.bound

namespace Rearranges

variable {binding binding' binding'' : Binding}

/-- Every binding is the same as itself. -/
theorem refl (binding : Binding) : binding.Rearranges binding :=
  ⟨.refl _, rfl, .refl _, .refl _, fun _ => .refl _⟩

/-- What is the same up to order as a third one by way of a second one. -/
theorem trans (h : binding.Rearranges binding') (h' : binding'.Rearranges binding'') :
    binding.Rearranges binding'' where
  keys := h.keys.trans h'.keys
  excess := h.excess.trans h'.excess
  duplicates := h.duplicates.trans h'.duplicates
  unexpected := h.unexpected.trans h'.unexpected
  bound hnone := by
    have hnone' : binding'.duplicates = [] := List.perm_nil.mp (hnone ▸ h.duplicates.symm)
    exact (h.bound hnone).trans (h'.bound hnone')

end Rearranges

section Steps

variable (params : List Param) (taken : List String) (argument : KeywordArg)

/-- The entry that a keyword adds when these names are bound. -/
def newlyBound : Ordered String (ArgKind × Param) :=
  if argument.name ∈ taken then []
  else ((named? params argument.name).map fun param =>
    (argument.name, argument.kind, param)).toList

/-- The name of a keyword, if its parameter is among those that are bound. -/
def givenAgain : List String :=
  if argument.name ∈ taken ∧ (named? params argument.name).isSome then [argument.name] else []

/-- The name of a keyword, if it names no parameter and is not collected. -/
def unplaced : List String :=
  if (named? params argument.name).isNone ∧ !takesKeywords params then [argument.name] else []

/-- What is done with a keyword depends on the names that are bound alone. -/
theorem keyword_eq (binding : Binding) :
    keyword params binding argument =
      { bound := binding.bound ++ newlyBound params binding.bound.keys argument
        excess := binding.excess
        duplicates := binding.duplicates ++ givenAgain params binding.bound.keys argument
        unexpected := binding.unexpected ++ unplaced params argument } := by
  cases hnamed : named? params argument.name with
  | none =>
    rw [keyword_of_unknown hnamed]
    cases htakes : takesKeywords params <;> simp [newlyBound, givenAgain, unplaced, hnamed, htakes]
  | some param =>
    by_cases hmem : argument.name ∈ binding.bound.keys
    · rw [keyword_of_bound hnamed hmem]
      simp [newlyBound, givenAgain, unplaced, hnamed, hmem]
    · rw [keyword_of_free hnamed hmem]
      simp [newlyBound, givenAgain, unplaced, hnamed, hmem]

variable {params taken argument}

/-- A keyword binds no other name than its own. -/
theorem mem_keys_append_newlyBound (bound : Ordered String (ArgKind × Param)) {name : String}
    (hname : name ≠ argument.name) :
    name ∈ Ordered.keys (bound ++ newlyBound params taken argument) ↔ name ∈ bound.keys := by
  unfold newlyBound
  split
  · simp
  · cases named? params argument.name <;> simp [Ordered.keys, hname]

/-- The same entry is added where the same names are bound. -/
theorem newlyBound_congr {taken' : List String}
    (h : argument.name ∈ taken ↔ argument.name ∈ taken') :
    newlyBound params taken argument = newlyBound params taken' argument := by
  simp only [newlyBound, h]

/-- The same is given twice where the same names are bound. -/
theorem givenAgain_congr {taken' : List String}
    (h : argument.name ∈ taken ↔ argument.name ∈ taken') :
    givenAgain params taken argument = givenAgain params taken' argument := by
  simp only [givenAgain, h]

end Steps

variable {params : List Param} {binding binding' : Binding}

/-- A further keyword keeps bindings the same up to order. -/
theorem Rearranges.keyword (h : binding.Rearranges binding') (argument : KeywordArg) :
    (Binding.keyword params binding argument).Rearranges
      (Binding.keyword params binding' argument) := by
  have hmem : argument.name ∈ binding.bound.keys ↔ argument.name ∈ binding'.bound.keys :=
    h.keys.mem_iff
  rw [keyword_eq, keyword_eq, newlyBound_congr hmem, givenAgain_congr hmem]
  refine ⟨?_, h.excess, h.duplicates.append_right _, h.unexpected.append_right _, ?_⟩
  · simpa [Ordered.keys] using h.keys.append_right _
  · intro hnone
    exact (h.bound (List.append_eq_nil_iff.mp hnone).1).append_right _

/-- Further keywords keep bindings the same up to order. -/
theorem Rearranges.keywords (h : binding.Rearranges binding') (keywords : List KeywordArg) :
    (keywords.foldl (Binding.keyword params) binding).Rearranges
      (keywords.foldl (Binding.keyword params) binding') := by
  induction keywords generalizing binding binding' with
  | nil => exact h
  | cons argument rest ih => exact ih (h.keyword argument)

/-- Keywords of different names are bound alike in either order. -/
theorem rearranges_swap_of_ne (binding : Binding) {first second : KeywordArg}
    (hname : first.name ≠ second.name) :
    (keyword params (keyword params binding first) second).Rearranges
      (keyword params (keyword params binding second) first) := by
  simp only [keyword_eq]
  rw [newlyBound_congr (mem_keys_append_newlyBound binding.bound hname.symm),
    givenAgain_congr (mem_keys_append_newlyBound binding.bound hname.symm),
    newlyBound_congr (mem_keys_append_newlyBound binding.bound hname),
    givenAgain_congr (mem_keys_append_newlyBound binding.bound hname)]
  have hswap {β : Type} (row left right : List β) : (row ++ left ++ right).Perm
      (row ++ right ++ left) := by
    rw [List.append_assoc, List.append_assoc]
    exact List.perm_append_comm.append_left row
  exact ⟨(hswap _ _ _).map Prod.fst, rfl, hswap _ _ _, hswap _ _ _, fun _ => hswap _ _ _⟩

/-- Of two keywords of one name the first is bound, if any is, and the second is given twice. -/
theorem rearranges_swap_of_eq (binding : Binding) {first second : KeywordArg}
    (hname : first.name = second.name) :
    (keyword params (keyword params binding first) second).Rearranges
      (keyword params (keyword params binding second) first) := by
  cases hnamed : named? params first.name with
  | none =>
    have hnamed' : named? params second.name = none := hname ▸ hnamed
    simp only [keyword_of_unknown hnamed, keyword_of_unknown hnamed', hname]
    exact .refl _
  | some param =>
    have hnamed' : named? params second.name = some param := hname ▸ hnamed
    by_cases hmem : first.name ∈ binding.bound.keys
    · have hmem' : second.name ∈ binding.bound.keys := hname ▸ hmem
      rw [keyword_of_bound hnamed hmem, keyword_of_bound hnamed' hmem',
        keyword_of_bound hnamed' (by exact hmem'), keyword_of_bound hnamed (by exact hmem), hname]
      exact .refl _
    · have hmem' : second.name ∉ binding.bound.keys := hname ▸ hmem
      rw [keyword_of_free hnamed hmem, keyword_of_free hnamed' hmem',
        keyword_of_bound hnamed' (by simp [Ordered.keys, hname]),
        keyword_of_bound hnamed (by simp [Ordered.keys, hname])]
      refine ⟨?_, rfl, ?_, .refl _, ?_⟩
      · simp [Ordered.keys, hname]
      · rw [hname]
      · intro hnone
        simp at hnone

/-- Two keywords are bound alike in either order. -/
theorem rearranges_swap (binding : Binding) (first second : KeywordArg) :
    (keyword params (keyword params binding first) second).Rearranges
      (keyword params (keyword params binding second) first) := by
  by_cases hname : first.name = second.name
  · exact rearranges_swap_of_eq binding hname
  · exact rearranges_swap_of_ne binding hname

/-- Keywords are bound alike in any order. -/
theorem rearranges_foldl {keywords keywords' : List KeywordArg} (h : keywords.Perm keywords')
    (binding : Binding) :
    (keywords.foldl (keyword params) binding).Rearranges
      (keywords'.foldl (keyword params) binding) := by
  induction h generalizing binding with
  | nil => exact .refl binding
  | cons argument _ ih => exact ih (keyword params binding argument)
  | swap first second rest => exact (rearranges_swap binding second first).keywords rest
  | trans _ _ ih ih' => exact (ih binding).trans (ih' binding)

/-- A call binds its arguments alike in any order of its keywords. -/
theorem rearranges_ofCall (params : List Param) (positional : List ArgKind)
    {keywords keywords' : List KeywordArg} (h : keywords.Perm keywords') :
    (ofCall params positional keywords).Rearranges (ofCall params positional keywords') :=
  rearranges_foldl h _

namespace Rearranges

variable (h : binding.Rearranges binding')
include h

/-- The same parameters lack an argument. -/
theorem missing_eq (params : List Param) : binding.missing params = binding'.missing params := by
  have hhas (name : String) : binding.bound.has name = binding'.bound.has name := by
    rw [Bool.eq_iff_iff, Ordered.has_iff, Ordered.has_iff, h.keys.mem_iff]
  simp only [missing, hhas]

/-- Where no parameter is given twice, the same comparisons are made. -/
theorem typeChecks (hnone : binding.duplicates = []) :
    binding.typeChecks.Perm binding'.typeChecks :=
  (h.bound hnone).filterMap _

end Rearranges

end Binding

section Verdicts

variable {α : Type}

/-- The details of a verdict on arguments in which arguments are listed in the order of the call. -/
def Binding.listedDetails : List String :=
  ["duplicate_arguments", "unexpected_keywords", "type_mismatches"]

/-- Whether two details are the same, or lists of the same items in any order. -/
inductive Binding.DetailRearranges : String × Datum α → String × Datum α → Prop where
  | same (detail : String × Datum α) : DetailRearranges detail detail
  | listed (name : String) (hname : name ∈ Binding.listedDetails) (items items' : List (Datum α))
      (h : items.Perm items') : DetailRearranges (name, .arr items) (name, .arr items')

/-- Whether two verdicts on arguments are the same, but for their message and for the order in which
arguments are listed. -/
structure Verdict.Rearranges (verdict verdict' : Verdict α) : Prop where
  status : verdict.status = verdict'.status
  confidence : verdict.confidence = verdict'.confidence
  suggestions : verdict.suggestions = verdict'.suggestions
  details : List.Forall₂ Binding.DetailRearranges verdict.details verdict'.details

namespace Verdict.Rearranges

variable {verdict verdict' : Verdict α}

/-- Every verdict is the same as itself. -/
theorem refl (verdict : Verdict α) : verdict.Rearranges verdict :=
  ⟨rfl, rfl, rfl, List.forall₂_same.mpr fun detail _ => .same detail⟩

/-- All other details are the same. -/
theorem get?_eq (h : verdict.Rearranges verdict') {name : String}
    (hname : name ∉ Binding.listedDetails) :
    verdict.details.get? name = verdict'.details.get? name := by
  obtain ⟨-, -, -, hdetails⟩ := h
  generalize verdict.details = details at hdetails
  generalize verdict'.details = details' at hdetails
  induction hdetails with
  | nil => rfl
  | cons hdetail _ ih =>
    cases hdetail with
    | same detail => simp only [Ordered.get?, ih]
    | listed other hother items items' _ =>
      have hne : other ≠ name := fun heq => hname (heq ▸ hother)
      simpa only [Ordered.get?, if_neg hne] using ih

end Verdict.Rearranges

namespace Binding

variable [Scalar α]

/-- The verdict on parameters that are given twice. -/
theorem rearranges_duplicateVerdict {names names' : List String} (h : names.Perm names') :
    (duplicateVerdict names : Verdict α).Rearranges (duplicateVerdict names') :=
  ⟨rfl, rfl, rfl, .cons (.listed _ (by decide) _ _ (h.map Datum.str)) .nil⟩

/-- The verdict on arguments that have nowhere to go. -/
theorem rearranges_surplusVerdict (params : List Param) (given excess : Nat)
    {names names' : List String} (h : names.Perm names') :
    (surplusVerdict params given excess names : Verdict α).Rearranges
      (surplusVerdict params given excess names') := by
  have hdetails : List.Forall₂ DetailRearranges
      [("excess_positional", .count excess), ("unexpected_keywords", .texts names)]
      [("excess_positional", .count excess),
        ("unexpected_keywords", (.texts names' : Datum α))] :=
    .cons (.same _) (.cons (.listed _ (by decide) _ _ (h.map Datum.str)) .nil)
  unfold surplusVerdict
  dsimp only
  split
  · exact ⟨rfl, rfl, rfl, hdetails⟩
  · exact ⟨rfl, rfl, rfl, hdetails⟩

/-- The verdict on arguments that are bound goes by the comparisons, not by their order. -/
theorem rearranges_typeVerdict (bound : Nat) {checks checks' : List TypeCheck}
    (h : checks.Perm checks') :
    (typeVerdict bound checks : Verdict α).Rearranges (typeVerdict bound checks') := by
  have hwrong := h.filter fun check => !check.accepted
  unfold typeVerdict
  dsimp only
  rw [h.length_eq, hwrong.length_eq, hwrong.isEmpty_eq]
  split
  · exact .refl _
  · exact ⟨rfl, rfl, rfl, .cons (.listed _ (by decide) _ _ (hwrong.map _)) .nil⟩

end Binding

/-- The order of the keywords of a call says nothing of its arguments. Whatever the parameters and
the arguments, with names that are given more than once as well: in any other order of the keywords
the verdict has the same status, the same confidence and the same details, but for the order in
which it lists arguments that are given twice, are unexpected or do not fit. What it says of missing
arguments and how many it counts is the same. -/
theorem checkArguments_perm [Scalar α] (declared : List Param) (positional : List ArgKind)
    {keywords keywords' : List KeywordArg} (h : keywords.Perm keywords') :
    let verdict : Verdict α := checkArguments declared positional keywords
    let verdict' : Verdict α := checkArguments declared positional keywords'
    verdict.Rearranges verdict' ∧
      ∀ name ∈ ["missing_arguments", "excess_positional", "checked_arguments", "bound_arguments"],
        verdict.details.get? name = verdict'.details.get? name := by
  intro verdict verdict'
  have hbinding := Binding.rearranges_ofCall (Binding.expected declared) positional h
  have hverdict : verdict.Rearranges verdict' := by
    simp only [verdict, verdict', checkArguments]
    rw [← hbinding.duplicates.isEmpty_eq, ← hbinding.excess, ← hbinding.unexpected.isEmpty_eq,
      ← hbinding.missing_eq]
    split
    · exact Binding.rearranges_duplicateVerdict hbinding.duplicates
    · rename_i hnone
      have hduplicates : (Binding.ofCall (Binding.expected declared) positional
          keywords).duplicates = [] := by simpa using hnone
      split
      · exact Binding.rearranges_surplusVerdict _ _ _ hbinding.unexpected
      · split
        · exact .refl _
        · rw [← (hbinding.bound hduplicates).length_eq]
          exact Binding.rearranges_typeVerdict _ (hbinding.typeChecks hduplicates)
  refine ⟨hverdict, fun name hname => hverdict.get?_eq ?_⟩
  revert name
  decide

/-- The parameters of a function that marks a point. -/
def markParams : List Param := [
  ⟨"x", some "int", false, .positional⟩, ⟨"y", some "int", false, .positional⟩,
  ⟨"label", some "str", true, .keywordOnly⟩]

/-- Keywords of a call of the function, one of which is given twice. -/
def markKeywords : List KeywordArg := [⟨"y", .str⟩, ⟨"y", .int⟩, ⟨"x", .int⟩]

/-- The names that are given twice are listed in the order of the keywords, and nothing else of the
verdict goes by it. -/
theorem checkArguments_perm_markKeywords :
    markKeywords.Perm markKeywords.reverse ∧
      (checkArguments markParams [.int] markKeywords : Verdict Rat).details =
        [("duplicate_arguments", .texts ["y", "x"])] ∧
      (checkArguments markParams [.int] markKeywords.reverse : Verdict Rat).details =
        [("duplicate_arguments", .texts ["x", "y"])] ∧
      (checkArguments markParams [.int] markKeywords : Verdict Rat).Rearranges
        (checkArguments markParams [.int] markKeywords.reverse) := by
  have hperm : markKeywords.Perm markKeywords.reverse := by decide
  exact ⟨hperm, rfl, rfl, (checkArguments_perm markParams [.int] hperm).1⟩

end Verdicts

end UsageAudit
