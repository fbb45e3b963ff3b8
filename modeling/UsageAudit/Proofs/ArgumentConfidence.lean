import UsageAudit.Proofs.CleanReports
import Mathlib.Data.List.Forall2

/-!
# Confidence in the arguments of a call

Once the arguments of a call are bound, each is compared with the declared type of its parameter, if
that says anything of it. The verdict goes by how many were compared and how many do not fit. So the
confidence in arguments that can be bound and fit lies between 4/5 and 9/10, and that in all others
between 3/10 and 3/5; and to know less of the arguments never makes a call worse that was valid.
-/

namespace UsageAudit

/-- Whether of an argument of the first kind no more is known than the second kind says: that it is
of the same kind, or nothing. -/
def ArgKind.BlursTo (kind kind' : ArgKind) : Prop := kind' = kind ∨ kind' = .unknown

/-- Whether of an argument given by keyword no more is known than another one says. -/
structure KeywordArg.BlursTo (argument argument' : KeywordArg) : Prop where
  name : argument'.name = argument.name
  kind : argument.kind.BlursTo argument'.kind

namespace Binding

/-- A parameter that has an argument, with the name under which it is bound and the kind of the
argument. -/
abbrev Bound := String × ArgKind × Param

/-- What the declared type of a bound parameter says of its argument. -/
def judgement? (entry : Bound) : Option Bool :=
  entry.2.2.declared.bind fun declared =>
    TypeHint.accepts declared entry.2.1 entry.2.2.hasDefault

/-- The number of bound parameters whose declared type says something of the argument. -/
def judged (binding : Binding) : Nat := binding.bound.countP fun entry => (judgement? entry).isSome

/-- The bound parameters whose declared type does not admit the argument, in the order in which they
were bound. -/
def offenders (binding : Binding) : List Bound :=
  binding.bound.filter fun entry => judgement? entry == some false

/-- What is said of a parameter whose declared type does not admit the argument. -/
def mismatch {α : Type} (entry : Bound) : Datum α :=
  .obj [("parameter", .str entry.1), ("expected", .str (entry.2.2.declared.getD "")),
    ("received", .str entry.2.1.name)]

/-- Whether all arguments are bound, no parameter is given twice, and none lacks an argument that it
needs. -/
structure Complete (binding : Binding) (params : List Param) : Prop where
  duplicates : binding.duplicates = []
  excess : binding.excess = 0
  unexpected : binding.unexpected = []
  missing : binding.missing params = []

section Exact

/-- The confidence in a call whose arguments cannot be bound. -/
theorem conflictConfidence_eq : (conflictConfidence : Rat) = 3 / 10 := by
  norm_num [conflictConfidence]

/-- The confidence in a call that leaves out an argument. -/
theorem missingConfidence_eq : (missingConfidence : Rat) = 1 / 2 := by
  norm_num [missingConfidence]

/-- A count is the number itself. -/
theorem ofCount_eq (count : Nat) : (Scalar.ofCount count : Rat) = count := rfl

/-- A share of a list is at most the whole. -/
theorem share_le_one {part whole : Nat} (h : part ≤ whole) : (part / whole : Rat) ≤ 1 :=
  div_le_one_of_le₀ (by exact_mod_cast h) (Nat.cast_nonneg whole)

/-- A share of a list is not negative. -/
theorem share_nonneg (part whole : Nat) : (0 : Rat) ≤ part / whole :=
  div_nonneg (Nat.cast_nonneg part) (Nat.cast_nonneg whole)

end Exact

section Comparisons

variable (binding : Binding)

/-- A comparison is made where the declared type says something. -/
theorem typeChecks_eq : binding.typeChecks = binding.bound.filterMap fun entry =>
    (judgement? entry).map fun accepted =>
      ⟨entry.1, entry.2.2.declared.getD "", entry.2.1, accepted⟩ := by
  unfold typeChecks
  congr 1
  funext ⟨name, kind, param⟩
  cases hdeclared : param.declared <;> simp [judgement?, hdeclared]

/-- As many comparisons are made as there are parameters whose declared type says something. -/
theorem length_typeChecks : binding.typeChecks.length = binding.judged := by
  rw [typeChecks_eq, judged]
  induction binding.bound with
  | nil => rfl
  | cons entry rest ih => cases hjudgement : judgement? entry <;> simp [hjudgement, ih]

/-- What does not fit is what the declared types do not admit. -/
theorem map_toDatum_typeChecks {α : Type} :
    (binding.typeChecks.filter fun check => !check.accepted).map
        (TypeCheck.toDatum : TypeCheck → Datum α) = binding.offenders.map mismatch := by
  rw [typeChecks_eq, offenders]
  induction binding.bound with
  | nil => rfl
  | cons entry rest ih =>
    rcases hjudgement : judgement? entry with _ | (_ | _)
    · simpa [hjudgement] using ih
    · simpa [hjudgement, TypeCheck.toDatum, mismatch] using ih
    · simpa [hjudgement] using ih

/-- As many comparisons fail as there are declared types that do not admit the argument. -/
theorem length_filter_typeChecks :
    (binding.typeChecks.filter fun check => !check.accepted).length = binding.offenders.length := by
  have hdata := congrArg List.length (map_toDatum_typeChecks binding : _ = (_ : List (Datum Rat)))
  simpa using hdata

/-- No more declared types refuse an argument than say something of it. -/
theorem length_offenders_le : binding.offenders.length ≤ binding.judged := by
  rw [← length_filter_typeChecks, ← length_typeChecks]
  exact List.length_filter_le _ _

/-- No more comparisons are made than there are bound parameters. -/
theorem length_typeChecks_le : binding.typeChecks.length ≤ binding.bound.length := by
  rw [length_typeChecks]
  exact List.countP_le_length

end Comparisons

section Verdicts

variable {bound : Nat} {checks : List TypeCheck}

/-- The verdict on arguments that all fit. -/
theorem typeVerdict_of_fit (hfit : (checks.filter fun check => !check.accepted) = [])
    (hle : checks.length ≤ bound) :
    (typeVerdict bound checks : Verdict Rat).status = .valid ∧
      (typeVerdict bound checks : Verdict Rat).confidence =
        if bound = 0 then 4 / 5 else 4 / 5 + 1 / 10 * (checks.length / bound : Rat) := by
  have hvalid : (validConfidence : Rat) = 4 / 5 := by norm_num [validConfidence]
  have hbonus : (checkedBonus : Rat) = 1 / 10 := by norm_num [checkedBonus]
  have hshare : (validConfidence + checkedBonus *
      (if bound = 0 then 0.0 else Scalar.ofCount checks.length / Scalar.ofCount bound) : Rat) =
        if bound = 0 then 4 / 5 else 4 / 5 + 1 / 10 * (checks.length / bound : Rat) := by
    rw [hvalid, hbonus, ofCount_eq, ofCount_eq]
    split
    · norm_num
    · rfl
  have hunit : InUnit
      (if bound = 0 then 4 / 5 else 4 / 5 + 1 / 10 * (checks.length / bound : Rat)) := by
    have hnonneg := share_nonneg checks.length bound
    have hone := share_le_one hle
    split
    · norm_num [InUnit]
    · constructor <;> linarith
  simp only [typeVerdict, hfit, List.isEmpty_nil, if_true]
  refine ⟨rfl, ?_⟩
  rw [Verdict.confidence_withDetail, Verdict.confidence_withDetail, Verdict.confidence_plain,
    hshare, Scalar.clampUnit_of_inUnit hunit]

/-- The verdict on arguments of which some do not fit. -/
theorem typeVerdict_of_mismatch (bound : Nat)
    (hwrong : (checks.filter fun check => !check.accepted) ≠ []) :
    (typeVerdict bound checks : Verdict Rat).status = .uncertain ∧
      (typeVerdict bound checks : Verdict Rat).confidence = 3 / 5 - 1 / 5 *
        ((checks.filter fun check => !check.accepted).length / checks.length : Rat) ∧
      (typeVerdict bound checks : Verdict Rat).details = [("type_mismatches",
        .arr ((checks.filter fun check => !check.accepted).map TypeCheck.toDatum))] := by
  have hmismatch : (mismatchConfidence : Rat) = 3 / 5 := by norm_num [mismatchConfidence]
  have hpenalty : (mismatchPenalty : Rat) = 1 / 5 := by norm_num [mismatchPenalty]
  have hsome : ¬(checks.filter fun check => !check.accepted).isEmpty = true := by
    simpa only [List.isEmpty_iff] using hwrong
  have hunit : InUnit (3 / 5 - 1 / 5 *
      ((checks.filter fun check => !check.accepted).length / checks.length : Rat)) := by
    have hnonneg :=
      share_nonneg (checks.filter fun check => !check.accepted).length checks.length
    have hone := share_le_one (List.length_filter_le (fun check => !check.accepted) checks)
    constructor <;> linarith
  simp only [typeVerdict, if_neg hsome]
  refine ⟨rfl, ?_, rfl⟩
  rw [Verdict.confidence_withDetail, Verdict.confidence_plain, hmismatch, hpenalty, ofCount_eq,
    ofCount_eq, Scalar.clampUnit_of_inUnit hunit]

/-- Whether a verdict on arguments is within the bounds for its status. -/
def InBand (verdict : Verdict Rat) : Prop :=
  (verdict.status = .valid ∧ 4 / 5 ≤ verdict.confidence ∧ verdict.confidence ≤ 9 / 10) ∨
    verdict.status = .uncertain ∧ 3 / 10 ≤ verdict.confidence ∧ verdict.confidence < 3 / 5

/-- A comparison of types is within the bounds. -/
theorem inBand_typeVerdict (hle : checks.length ≤ bound) : InBand (typeVerdict bound checks) := by
  by_cases hfit : (checks.filter fun check => !check.accepted) = []
  · obtain ⟨hstatus, hconfidence⟩ := typeVerdict_of_fit hfit hle
    have hnonneg := share_nonneg checks.length bound
    have hone := share_le_one hle
    refine .inl ⟨hstatus, ?_⟩
    rw [hconfidence]
    split
    · norm_num
    · constructor <;> linarith
  · obtain ⟨hstatus, hconfidence, -⟩ := typeVerdict_of_mismatch bound hfit
    have hpositive : 0 < (checks.filter fun check => !check.accepted).length :=
      List.length_pos_iff.mpr hfit
    have hless := List.length_filter_le (fun check => !check.accepted) checks
    have hone := share_le_one hless
    have hshare : (0 : Rat) <
        (checks.filter fun check => !check.accepted).length / checks.length :=
      div_pos (by exact_mod_cast hpositive) (by exact_mod_cast hpositive.trans_le hless)
    refine .inr ⟨hstatus, ?_⟩
    rw [hconfidence]
    constructor <;> linarith

/-- A verdict with the confidence in arguments that cannot be bound is within the bounds. -/
theorem inBand_of_conflict {verdict : Verdict Rat} (hstatus : verdict.status = .uncertain)
    (hconfidence : verdict.confidence = Scalar.clampUnit conflictConfidence) : InBand verdict := by
  refine .inr ⟨hstatus, ?_⟩
  rw [hconfidence, conflictConfidence_eq, Scalar.clampUnit_of_inUnit (by norm_num [InUnit])]
  norm_num

/-- The verdict on arguments that are left out is within the bounds. -/
theorem inBand_missingVerdict (names : List String) : InBand (missingVerdict names) := by
  refine .inr ⟨rfl, ?_⟩
  have hconfidence : (missingVerdict names : Verdict Rat).confidence = 1 / 2 := by
    rw [← missingConfidence_eq]
    exact Scalar.clampUnit_of_inUnit (by norm_num [InUnit, missingConfidence])
  rw [hconfidence]
  norm_num

/-- Every verdict on arguments is within the bounds. -/
theorem inBand_checkArguments (declared : List Param) (positional : List ArgKind)
    (keywords : List KeywordArg) : InBand (checkArguments declared positional keywords) := by
  unfold checkArguments
  dsimp only
  split
  · exact inBand_of_conflict rfl rfl
  · split
    · unfold surplusVerdict
      dsimp only
      split <;> exact inBand_of_conflict rfl rfl
    · split
      · exact inBand_missingVerdict _
      · exact inBand_typeVerdict (length_typeChecks_le _)

/-- No verdict on arguments is worse than the one on arguments that cannot be bound. -/
theorem conflictConfidence_le_checkArguments (declared : List Param) (positional : List ArgKind)
    (keywords : List KeywordArg) :
    conflictConfidence ≤
      (checkArguments declared positional keywords : Verdict Rat).confidence := by
  rw [conflictConfidence_eq]
  rcases inBand_checkArguments declared positional keywords with ⟨-, hle, -⟩ | ⟨-, hle, -⟩
  · linarith
  · exact hle

end Verdicts

section Complete

variable {declared : List Param} {positional : List ArgKind} {keywords : List KeywordArg}

/-- Of a call with which nothing else is wrong the types are compared. -/
theorem checkArguments_of_complete {α : Type} [Scalar α]
    (h : (ofCall (expected declared) positional keywords).Complete (expected declared)) :
    (checkArguments declared positional keywords : Verdict α) =
      typeVerdict (ofCall (expected declared) positional keywords).bound.length
        (ofCall (expected declared) positional keywords).typeChecks := by
  simp [checkArguments, h.duplicates, h.excess, h.unexpected, h.missing]

/-- Something is wrong with the binding of a call that is not valid for another reason than its
types. -/
theorem complete_of_valid
    (h : (checkArguments declared positional keywords : Verdict Rat).status = .valid) :
    (ofCall (expected declared) positional keywords).Complete (expected declared) := by
  unfold checkArguments at h
  dsimp only at h
  split at h
  · cases h
  · rename_i hduplicates
    split at h
    · unfold surplusVerdict at h
      dsimp only at h
      split at h <;> cases h
    · rename_i hsurplus
      split at h
      · cases h
      · rename_i hmissing
        refine ⟨?_, ?_, ?_, ?_⟩
        · simpa using hduplicates
        · by_contra hexcess
          exact hsurplus (.inl hexcess)
        · by_contra hunexpected
          exact hsurplus (.inr (by simpa using hunexpected))
        · simpa using hmissing

end Complete

section Blurring

/-- Whether the same parameter is bound under the same name, and no more is known of its
argument. -/
structure EntryBlursTo (entry entry' : Bound) : Prop where
  name : entry'.1 = entry.1
  kind : entry.2.1.BlursTo entry'.2.1
  param : entry'.2.2 = entry.2.2

/-- Whether two bindings are the same but for what is known of the arguments, of which the second
one tells no more. -/
structure BlursTo (binding binding' : Binding) : Prop where
  bound : List.Forall₂ EntryBlursTo binding.bound binding'.bound
  excess : binding'.excess = binding.excess
  duplicates : binding'.duplicates = binding.duplicates
  unexpected : binding'.unexpected = binding.unexpected

/-- Binding a parameter to an argument of which less is known tells no more of the others. -/
theorem forall₂_put {bound bound' : Ordered String (ArgKind × Param)}
    (h : List.Forall₂ EntryBlursTo bound bound') (name : String) (param : Param)
    {kind kind' : ArgKind} (hkind : kind.BlursTo kind') :
    List.Forall₂ EntryBlursTo (bound.put name (kind, param)) (bound'.put name (kind', param)) := by
  induction h with
  | nil => exact .cons ⟨rfl, hkind, rfl⟩ .nil
  | @cons entry entry' rest rest' hentry hrest ih =>
    obtain ⟨first, value⟩ := entry
    obtain ⟨first', value'⟩ := entry'
    obtain rfl : first' = first := hentry.name
    by_cases hname : first' = name
    · simp only [Ordered.put, if_pos hname]
      exact .cons ⟨rfl, hkind, rfl⟩ hrest
    · simp only [Ordered.put, if_neg hname]
      exact .cons hentry ih

/-- The same names are bound where less is known of the arguments. -/
theorem keys_eq_of_forall₂ {bound bound' : Ordered String (ArgKind × Param)}
    (h : List.Forall₂ EntryBlursTo bound bound') : bound'.keys = bound.keys := by
  induction h with
  | nil => rfl
  | cons hentry _ ih => simp_all [Ordered.keys, hentry.name]

namespace BlursTo

variable {binding binding' : Binding} (h : binding.BlursTo binding')
include h

/-- The same names are bound. -/
theorem has_eq (name : String) : binding'.bound.has name = binding.bound.has name := by
  rw [Bool.eq_iff_iff, Ordered.has_iff, Ordered.has_iff, keys_eq_of_forall₂ h.bound]

/-- Binding an argument of which less is known. -/
theorem bind (param : Param) {kind kind' : ArgKind} (hkind : kind.BlursTo kind') :
    (binding.bind param kind).BlursTo (binding'.bind param kind') :=
  ⟨forall₂_put h.bound param.name param hkind, h.excess, h.duplicates, h.unexpected⟩

/-- Binding arguments by position of which less is known. -/
theorem positionals (takesMore : Bool) (slots : List Param) {kinds kinds' : List ArgKind}
    (hkinds : List.Forall₂ ArgKind.BlursTo kinds kinds') :
    (Binding.positionals takesMore binding slots kinds).BlursTo
      (Binding.positionals takesMore binding' slots kinds') := by
  induction slots generalizing binding binding' kinds kinds' with
  | nil =>
    have hlength := hkinds.length_eq
    cases hkinds with
    | nil => exact h
    | cons hkind hrest =>
      cases takesMore with
      | true => exact h
      | false =>
        refine ⟨h.bound, ?_, h.duplicates, h.unexpected⟩
        simp only [Binding.positionals, Bool.false_eq_true, if_false, h.excess, hlength]
  | cons slot slots ih =>
    cases hkinds with
    | nil => exact h
    | cons hkind hrest => exact ih (h.bind slot hkind) hrest

/-- Binding an argument by keyword of which less is known. -/
theorem keyword (params : List Param) {argument argument' : KeywordArg}
    (hargument : argument.BlursTo argument') :
    (Binding.keyword params binding argument).BlursTo
      (Binding.keyword params binding' argument') := by
  unfold Binding.keyword
  rw [hargument.name]
  cases named? params argument.name with
  | some param =>
    dsimp only
    rw [h.has_eq]
    split
    · exact ⟨h.bound, h.excess, by rw [h.duplicates], h.unexpected⟩
    · exact h.bind param hargument.kind
  | none =>
    dsimp only
    split
    · exact h
    · exact ⟨h.bound, h.excess, h.duplicates, by rw [h.unexpected]⟩

/-- Binding arguments by keyword of which less is known. -/
theorem keywords (params : List Param) {arguments arguments' : List KeywordArg}
    (harguments : List.Forall₂ KeywordArg.BlursTo arguments arguments') :
    (arguments.foldl (Binding.keyword params) binding).BlursTo
      (arguments'.foldl (Binding.keyword params) binding') := by
  induction harguments generalizing binding binding' with
  | nil => exact h
  | cons hargument _ ih => exact ih (h.keyword params hargument)

/-- The same parameters lack an argument. -/
theorem missing_eq (params : List Param) : binding'.missing params = binding.missing params := by
  simp only [missing, h.has_eq]

/-- A binding is as complete as one that tells less of the arguments. -/
theorem complete {params : List Param} (hcomplete : binding.Complete params) :
    binding'.Complete params :=
  ⟨h.duplicates.trans hcomplete.duplicates, h.excess.trans hcomplete.excess,
    h.unexpected.trans hcomplete.unexpected, (h.missing_eq params).trans hcomplete.missing⟩

/-- No declared type refuses an argument for the reason that less is known of it. -/
theorem offenders_eq_nil (hnone : binding.offenders = []) : binding'.offenders = [] := by
  simp only [offenders, List.filter_eq_nil_iff, beq_iff_eq] at hnone ⊢
  intro entry' hmem' hrefused
  obtain ⟨entry, hmem, hentry⟩ :
      ∃ entry ∈ binding.bound, EntryBlursTo entry entry' := by
    obtain ⟨index, hindex, heq⟩ := List.getElem_of_mem hmem'
    have hlength := h.bound.length_eq
    refine ⟨binding.bound[index], List.getElem_mem _, ?_⟩
    rw [← heq]
    exact h.bound.get (by omega) hindex
  refine hnone entry hmem ?_
  rcases hentry.kind with hsame | hunknown
  · have heq : entry' = entry := Prod.ext hentry.name (Prod.ext hsame hentry.param)
    rwa [← heq]
  · cases hdeclared : entry'.2.2.declared <;>
      simp [judgement?, hdeclared, hunknown, TypeHint.accepts, ArgKind.isKnown] at hrefused

end BlursTo

/-- A call of which less is known is bound in the same way. -/
theorem blursTo_ofCall (params : List Param) {positional positional' : List ArgKind}
    (hpositional : List.Forall₂ ArgKind.BlursTo positional positional')
    {keywords keywords' : List KeywordArg}
    (hkeywords : List.Forall₂ KeywordArg.BlursTo keywords keywords') :
    (ofCall params positional keywords).BlursTo (ofCall params positional' keywords') := by
  have hempty : BlursTo ⟨[], 0, [], []⟩ ⟨[], 0, [], []⟩ := ⟨.nil, rfl, rfl, rfl⟩
  exact (hempty.positionals _ _ hpositional).keywords params hkeywords

end Blurring

section Complete

variable {declared : List Param} {positional : List ArgKind} {keywords : List KeywordArg}

/-- A call whose arguments are all bound is valid if and only if no declared type refuses one. -/
theorem valid_iff_of_complete
    (h : (ofCall (expected declared) positional keywords).Complete (expected declared)) :
    (checkArguments declared positional keywords : Verdict Rat).status = .valid ↔
      (ofCall (expected declared) positional keywords).offenders = [] := by
  have hlength := length_filter_typeChecks (ofCall (expected declared) positional keywords)
  rw [checkArguments_of_complete h, ← List.length_eq_zero_iff, ← hlength,
    List.length_eq_zero_iff]
  constructor
  · intro hvalid
    by_contra hwrong
    obtain ⟨hstatus, -⟩ := typeVerdict_of_mismatch
      (ofCall (expected declared) positional keywords).bound.length hwrong
    rw [hstatus] at hvalid
    cases hvalid
  · intro hfit
    exact (typeVerdict_of_fit hfit (length_typeChecks_le _)).1

end Complete

/-- Once the arguments of a call are bound, it is valid if and only if no declared type refuses one,
and its confidence goes by the share of arguments that were compared; otherwise the parameters are
listed whose types refuse an argument, and the confidence goes by their share of those compared.
Whatever the call, the confidence lies within the bounds for its status, and a valid call stays
valid when less is known of its arguments. -/
theorem checkArguments_compares (declared : List Param) (positional : List ArgKind)
    (keywords : List KeywordArg) :
    let binding := ofCall (expected declared) positional keywords
    let verdict : Verdict Rat := checkArguments declared positional keywords
    (binding.Complete (expected declared) →
      (verdict.status = .valid ↔ binding.offenders = []) ∧
        (binding.offenders = [] → verdict.confidence =
          if binding.bound.length = 0 then 4 / 5
          else 4 / 5 + 1 / 10 * (binding.judged / binding.bound.length : Rat)) ∧
        (binding.offenders ≠ [] → verdict.status = .uncertain ∧
          verdict.confidence = 3 / 5 - 1 / 5 * (binding.offenders.length / binding.judged : Rat) ∧
          verdict.details = [("type_mismatches", .arr (binding.offenders.map mismatch))] ∧
          0 < binding.offenders.length ∧ binding.offenders.length ≤ binding.judged ∧
          binding.judged ≤ binding.bound.length)) ∧
      ((verdict.status = .valid ∧ 4 / 5 ≤ verdict.confidence ∧ verdict.confidence ≤ 9 / 10) ∨
        verdict.status = .uncertain ∧ 3 / 10 ≤ verdict.confidence ∧ verdict.confidence < 3 / 5) ∧
      ∀ positional' keywords', List.Forall₂ ArgKind.BlursTo positional positional' →
        List.Forall₂ KeywordArg.BlursTo keywords keywords' → verdict.status = .valid →
          (checkArguments declared positional' keywords' : Verdict Rat).status = .valid := by
  intro binding verdict
  have hwrong := length_filter_typeChecks binding
  have hjudged := length_offenders_le binding
  have hbound := length_typeChecks_le binding
  refine ⟨?_, inBand_checkArguments declared positional keywords, ?_⟩
  · intro hcomplete
    have hverdict : verdict = typeVerdict binding.bound.length binding.typeChecks :=
      checkArguments_of_complete hcomplete
    refine ⟨valid_iff_of_complete hcomplete, ?_, ?_⟩
    · intro hnone
      have hfit : (binding.typeChecks.filter fun check => !check.accepted) = [] := by
        rw [← List.length_eq_zero_iff, hwrong, hnone, List.length_nil]
      have hconfidence := (typeVerdict_of_fit hfit hbound).2
      rwa [← hverdict, length_typeChecks] at hconfidence
    · intro hsome
      have hpositive : 0 < binding.offenders.length := List.length_pos_iff.mpr hsome
      have hmismatch : (binding.typeChecks.filter fun check => !check.accepted) ≠ [] := by
        rw [← List.length_pos_iff, hwrong]
        exact hpositive
      obtain ⟨hstatus, hconfidence, hdetails⟩ :=
        typeVerdict_of_mismatch binding.bound.length hmismatch
      rw [← hverdict] at hstatus hconfidence hdetails
      rw [length_typeChecks, hwrong] at hconfidence
      rw [map_toDatum_typeChecks] at hdetails
      rw [length_typeChecks] at hbound
      exact ⟨hstatus, hconfidence, hdetails, hpositive, hjudged, hbound⟩
  · intro positional' keywords' hpositional hkeywords hvalid
    have hblurs := blursTo_ofCall (expected declared) hpositional hkeywords
    have hcomplete := complete_of_valid hvalid
    have hnone := (valid_iff_of_complete hcomplete).mp hvalid
    exact (valid_iff_of_complete (hblurs.complete hcomplete)).mpr (hblurs.offenders_eq_nil hnone)

/-- The parameters of a function that labels a number of points. -/
def labelParams : List Param := [
  ⟨"count", some "int", false, .positional⟩, ⟨"text", some "Optional[str]", false, .positional⟩,
  ⟨"style", some "Style", true, .keywordOnly⟩]

/-- A call that gives a number for the text is bound, and one of its two comparisons fails. A call
that gives a text is valid, also if nothing is known of the text. -/
theorem checkArguments_compares_labelParams :
    (ofCall (expected labelParams) [.int, .float] [⟨"style", .dict⟩]).Complete
        (expected labelParams) ∧
      (checkArguments labelParams [.int, .float] [⟨"style", .dict⟩] : Verdict Rat).status =
        .uncertain ∧
      (checkArguments labelParams [.int, .float] [⟨"style", .dict⟩] : Verdict Rat).confidence =
        1 / 2 ∧
      (checkArguments labelParams [.int, .str] [] : Verdict Rat).status = .valid ∧
      (checkArguments labelParams [.int, .unknown] [] : Verdict Rat).status = .valid := by
  have hcomplete : (ofCall (expected labelParams) [.int, .float] [⟨"style", .dict⟩]).Complete
      (expected labelParams) := by
    constructor <;> decide +kernel
  have hoffenders :
      (ofCall (expected labelParams) [.int, .float] [⟨"style", .dict⟩]).offenders.length = 1 := by
    decide +kernel
  have hjudged : (ofCall (expected labelParams) [.int, .float] [⟨"style", .dict⟩]).judged = 2 := by
    decide +kernel
  have hvalid : (checkArguments labelParams [.int, .str] [] : Verdict Rat).status = .valid := by
    decide +kernel
  obtain ⟨-, hwrong⟩ :=
    ((checkArguments_compares labelParams [.int, .float] [⟨"style", .dict⟩]).1 hcomplete).2
  obtain ⟨hstatus, hconfidence, -⟩ := hwrong (List.length_pos_iff.mp (by omega))
  have hblurred := (checkArguments_compares labelParams [.int, .str] []).2.2 [.int, .unknown] []
    (.cons (.inl rfl) (.cons (.inr rfl) .nil)) .nil hvalid
  refine ⟨hcomplete, hstatus, ?_, hvalid, hblurred⟩
  rw [hconfidence, hoffenders, hjudged]
  norm_num

end Binding

end UsageAudit
