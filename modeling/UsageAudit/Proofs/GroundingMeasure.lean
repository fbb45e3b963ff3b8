import UsageAudit.Proofs.CleanReports
import UsageAudit.Proofs.ExtendedScalar

/-!
# What similarities come to

An answer is measured by the similarities in it. If one of them is no number between zero and one,
the whole answer says nothing. If all are, the greatest decides whether the usage is grounded and,
if it is, how far it is trusted; if it is not, their mean does. Nothing of this depends on the order
of the examples.
-/

namespace UsageAudit

/-- Whether a value is a rational number between zero and one. -/
def Extended.IsSimilarity (x : Extended) : Prop := ∃ value : Rat, x = .finite value ∧ InUnit value

namespace Grounding

/-- What is tested of a similarity. -/
theorem isSimilarity_iff (x : Extended) : isSimilarity x = true ↔ x.IsSimilarity := by
  cases x with
  | finite value =>
    have hvalue : (Extended.finite value).IsSimilarity ↔ InUnit value := by
      constructor
      · rintro ⟨value', heq, hunit⟩
        rwa [Extended.finite_injective heq]
      · intro hunit
        exact ⟨value, rfl, hunit⟩
    rw [hvalue]
    have hfinite : Scalar.isFinite (Extended.finite value) = true := rfl
    simp [isSimilarity, hfinite, Scalar.inUnit, Extended.zero_eq, Extended.one_eq, InUnit]
  | infinite negative => simp [isSimilarity, Extended.IsSimilarity]
  | notANumber => simp [isSimilarity, Extended.IsSimilarity]

/-- Whether a grounding says nothing, for an answer that cannot be used. -/
structure Neutral (grounding : Grounding Extended) : Prop where
  status : grounding.verdict.status = .uncertain
  confidence : grounding.verdict.confidence = .finite (1 / 2)
  exampleCount : grounding.exampleCount = 0
  grounded : grounding.grounded = false
  best : grounding.best = none
  mean : grounding.mean = none
  topExample : grounding.topExample = none
  error : ∃ message, Ordered.get? grounding.verdict.details "error" = some (.str message)

/-- How far similarities are trusted: as far as the greatest if that is enough, as far as their mean
if it is not, and half if there are none. -/
def trust (grounded : Bool) (values : List Rat) : Rat :=
  match values.max? with
  | none => 1 / 2
  | some greatest => if grounded then greatest else values.sum / values.length

/-- Whether a grounding measures examples by their similarities. -/
structure Measures (settings : Settings Extended) (hits : List (Hit Extended)) (values : List Rat)
    (grounding : Grounding Extended) : Prop where
  similarities : hits.map Hit.similarity = values.map .finite
  exampleCount : grounding.exampleCount = hits.length
  /-- A usage is grounded if one of the examples is similar enough. -/
  grounded : grounding.grounded = true ↔
    ∃ hit ∈ hits, Scalar.atMost settings.groundedSimilarity hit.similarity = true
  status : grounding.verdict.status = if grounding.grounded then .valid else .uncertain
  best : grounding.best = values.max?.map .finite
  mean : grounding.mean = if values = [] then none else some (.finite (values.sum / values.length))
  confidence : grounding.verdict.confidence = .finite (trust grounding.grounded values)
  inUnit : InUnit (trust grounding.grounded values)
  /-- The confidence is neither below the least nor above the greatest similarity. -/
  between : ∀ least greatest, values.min? = some least → values.max? = some greatest →
    least ≤ trust grounding.grounded values ∧ trust grounding.grounded values ≤ greatest
  mean_le_best : ∀ mean best, grounding.mean = some (.finite mean) →
    grounding.best = some (.finite best) → mean ≤ best
  /-- The example that is shown is one of those with the greatest similarity. -/
  topExample : if hits = [] then grounding.topExample = none else
    ∃ hit ∈ hits, grounding.best = some hit.similarity ∧
      grounding.topExample = some (preview hit.content)

section Best

/-- The best of some examples is one of them. -/
theorem foldl_better_mem {α : Type} [Scalar α] (first : Hit α) (rest : List (Hit α)) :
    rest.foldl better first ∈ first :: rest := by
  induction rest generalizing first with
  | nil => simp
  | cons second rest ih =>
    have hmem := ih (better first second)
    have hbetter : better first second = first ∨ better first second = second := by
      unfold better
      split
      · exact Or.inr rfl
      · exact Or.inl rfl
    rw [List.foldl_cons]
    rcases hbetter with heq | heq <;> rw [heq] at hmem ⊢ <;>
      rcases List.mem_cons.mp hmem with hmem | hmem <;> simp [hmem]

/-- Neither of two examples is more similar than the better of them. -/
theorem atMost_better {first second : Hit Extended} {value value' : Rat}
    (hvalue : first.similarity = .finite value) (hvalue' : second.similarity = .finite value') :
    (∃ value, (better first second).similarity = .finite value) ∧
      Scalar.atMost first.similarity (better first second).similarity = true ∧
      Scalar.atMost second.similarity (better first second).similarity = true := by
  unfold better
  rw [hvalue, hvalue', Extended.notAbove_finite]
  split
  · rename_i hle
    rw [hvalue', Extended.atMost_finite, Extended.atMost_finite]
    exact ⟨⟨value', rfl⟩, hle, by simp⟩
  · rename_i hnot
    rw [hvalue, Extended.atMost_finite, Extended.atMost_finite]
    have hle : value' ≤ value := le_of_not_ge (by simpa using hnot)
    exact ⟨⟨value, rfl⟩, by simp, by simpa using hle⟩

/-- None of some examples is more similar than the best of them. -/
theorem atMost_foldl_better (first : Hit Extended) (rest : List (Hit Extended))
    (hfinite : ∀ hit ∈ first :: rest, ∃ value, hit.similarity = .finite value) :
    ∀ hit ∈ first :: rest,
      Scalar.atMost hit.similarity (rest.foldl better first).similarity = true := by
  induction rest generalizing first with
  | nil =>
    obtain ⟨value, hvalue⟩ := hfinite first (by simp)
    simp [hvalue]
  | cons second rest ih =>
    obtain ⟨value, hvalue⟩ := hfinite first (by simp)
    obtain ⟨value', hvalue'⟩ := hfinite second (by simp)
    obtain ⟨hbetter, hfirst, hsecond⟩ := atMost_better hvalue hvalue'
    have hmore : ∀ hit ∈ better first second :: rest, ∃ value, hit.similarity = .finite value := by
      intro hit hmem
      rcases List.mem_cons.mp hmem with rfl | hmem
      · exact hbetter
      · exact hfinite hit (by simp [hmem])
    have hbest := ih (better first second) hmore
    have hstands := hbest (better first second) (by simp)
    intro hit hmem
    rw [List.foldl_cons]
    rcases List.mem_cons.mp hmem with rfl | hmem
    · exact Extended.atMost_trans hfirst hstands
    · rcases List.mem_cons.mp hmem with rfl | hmem
      · exact Extended.atMost_trans hsecond hstands
      · exact hbest hit (by simp [hmem])

/-- The best of some examples is similar enough if and only if one of them is. -/
theorem atMost_best_iff (least : Extended) {first : Hit Extended} {rest : List (Hit Extended)}
    (hfinite : ∀ hit ∈ first :: rest, ∃ value, hit.similarity = .finite value) :
    Scalar.atMost least (rest.foldl better first).similarity = true ↔
      ∃ hit ∈ first :: rest, Scalar.atMost least hit.similarity = true := by
  constructor
  · intro henough
    exact ⟨_, foldl_better_mem first rest, henough⟩
  · rintro ⟨hit, hmem, henough⟩
    exact Extended.atMost_trans henough (atMost_foldl_better first rest hfinite hit hmem)

/-- Each of some examples has one of the values for its similarity. -/
theorem exists_value_of_mem {hits : List (Hit Extended)} {values : List Rat}
    (hvalues : hits.map Hit.similarity = values.map .finite) {hit : Hit Extended}
    (hmem : hit ∈ hits) : ∃ value ∈ values, hit.similarity = .finite value := by
  have hsimilarity := List.mem_map_of_mem (f := Hit.similarity) hmem
  rw [hvalues] at hsimilarity
  obtain ⟨value, hvalue, heq⟩ := List.mem_map.mp hsimilarity
  exact ⟨value, hvalue, heq.symm⟩

/-- The best of some examples has the greatest similarity. -/
theorem exists_max?_eq {first : Hit Extended} {rest : List (Hit Extended)} {values : List Rat}
    (hvalues : (first :: rest).map Hit.similarity = values.map .finite) :
    ∃ greatest, (rest.foldl better first).similarity = .finite greatest ∧
      values.max? = some greatest := by
  obtain ⟨greatest, hgreatest, heq⟩ := exists_value_of_mem hvalues (foldl_better_mem first rest)
  refine ⟨greatest, heq, List.max?_eq_some_iff.mpr ⟨hgreatest, ?_⟩⟩
  intro value hvalue
  have hmem : Extended.finite value ∈ (first :: rest).map Hit.similarity := by
    rw [hvalues]
    exact List.mem_map_of_mem hvalue
  obtain ⟨hit, hhit, hsimilarity⟩ := List.mem_map.mp hmem
  have hle := atMost_foldl_better first rest
    (fun hit hmem => (exists_value_of_mem hvalues hmem).imp fun _ h => h.2) hit hhit
  simpa [hsimilarity, heq] using hle

end Best

/-- The mean of numbers is neither below the least nor above the greatest of them. -/
theorem mean_between {values : List Rat} {least greatest : Rat} (hleast : values.min? = some least)
    (hgreatest : values.max? = some greatest) :
    least ≤ values.sum / values.length ∧ values.sum / values.length ≤ greatest := by
  have hne : values ≠ [] := by
    rintro rfl
    cases hleast
  have hmean := Scalar.mean?_of_ne_nil hne
  exact ⟨Scalar.le_of_mean? (List.min?_eq_some_iff.mp hleast).2 hmean,
    Scalar.mean?_le (List.max?_eq_some_iff.mp hgreatest).2 hmean⟩

/-- Numbers between zero and one are trusted so far, and neither below the least nor above the
greatest of them. -/
theorem trust_between (grounded : Bool) {values : List Rat} {least greatest : Rat}
    (hleast : values.min? = some least) (hgreatest : values.max? = some greatest) :
    least ≤ trust grounded values ∧ trust grounded values ≤ greatest := by
  have hmean := mean_between hleast hgreatest
  simp only [trust, hgreatest]
  split
  · exact ⟨(List.min?_eq_some_iff.mp hleast).2 _ (List.max?_eq_some_iff.mp hgreatest).1, le_rfl⟩
  · exact hmean

/-- Numbers between zero and one are trusted so far. -/
theorem inUnit_trust (grounded : Bool) {values : List Rat} (h : ∀ value ∈ values, InUnit value) :
    InUnit (trust grounded values) := by
  cases hleast : values.min? with
  | none =>
    rw [List.min?_eq_none_iff] at hleast
    subst hleast
    norm_num [trust, InUnit]
  | some least =>
    obtain ⟨greatest, hgreatest⟩ : ∃ greatest, values.max? = some greatest := by
      cases hgreatest : values.max? with
      | none => simp [List.max?_eq_none_iff.mp hgreatest] at hleast
      | some greatest => exact ⟨greatest, rfl⟩
    obtain ⟨hlow, hhigh⟩ := trust_between grounded hleast hgreatest
    exact ⟨(h least (List.min?_eq_some_iff.mp hleast).1).1.trans hlow,
      hhigh.trans (h greatest (List.max?_eq_some_iff.mp hgreatest).1).2⟩

variable {settings : Settings Extended} (element : ElementRef) (query : String)

/-- An answer that cannot be used says nothing. -/
theorem neutral_malformed (message : String) :
    (malformed element query message : Grounding Extended).Neutral where
  status := rfl
  confidence := by
    have hunit : InUnit (1 / 2) := by norm_num [InUnit]
    rw [malformed, Verdict.confidence_withDetail, Verdict.confidence_plain,
      Extended.neutralConfidence_eq, Extended.clampUnit_finite hunit]
  exampleCount := rfl
  grounded := rfl
  best := rfl
  mean := rfl
  topExample := rfl
  error := ⟨message, Ordered.get?_put_self _ _ _⟩

/-- Without examples a usage is measured by none. -/
theorem measures_unsupported : (unsupported element query).Measures settings [] [] where
  similarities := rfl
  exampleCount := rfl
  grounded := by simp [unsupported]
  status := rfl
  best := rfl
  mean := rfl
  confidence := by
    have hunit : InUnit (1 / 2) := by norm_num [InUnit]
    rw [unsupported, Verdict.confidence_plain, Extended.neutralConfidence_eq,
      Extended.clampUnit_finite hunit]
    rfl
  inUnit := by norm_num [trust, InUnit]
  between := by simp
  mean_le_best := by simp [unsupported]
  topExample := rfl

section Verdict

variable {α : Type} [Scalar α] (settings : Settings α) (element : ElementRef) (query : String)
  (first : Hit α) (rest : List (Hit α))

/-- A usage with examples is valid if it is grounded, and in doubt otherwise. -/
theorem status_ofHits : (ofHits settings element query first rest).verdict.status =
    if (ofHits settings element query first rest).grounded then .valid else .uncertain := by
  cases henough : Scalar.atMost settings.groundedSimilarity (rest.foldl better first).similarity <;>
    simp [ofHits, henough, Verdict.withDetail, Verdict.withSuggestion, Verdict.plain]

/-- A usage with examples is trusted as far as the best of them, or as far as their mean. -/
theorem confidence_ofHits : (ofHits settings element query first rest).verdict.confidence =
    Scalar.clampUnit (if (ofHits settings element query first rest).grounded then
      (rest.foldl better first).similarity
    else Scalar.total ((first :: rest).map Hit.similarity) /
      Scalar.ofCount (first :: rest).length) := by
  cases henough : Scalar.atMost settings.groundedSimilarity (rest.foldl better first).similarity <;>
    simp [ofHits, henough]

end Verdict

/-- Examples with good similarities are what a usage is measured by. -/
theorem measures_ofHits {first : Hit Extended} {rest : List (Hit Extended)} {values : List Rat}
    (hvalues : (first :: rest).map Hit.similarity = values.map .finite)
    (hunit : ∀ value ∈ values, InUnit value) :
    (ofHits settings element query first rest).Measures settings (first :: rest) values := by
  obtain ⟨greatest, htop, hgreatest⟩ := exists_max?_eq hvalues
  have hlength : (first :: rest).length = values.length := by
    simpa using congrArg List.length hvalues
  have hne : values ≠ [] := by
    rintro rfl
    simp at hlength
  have hmean : Scalar.total ((first :: rest).map Hit.similarity) /
      Scalar.ofCount (first :: rest).length = Extended.finite (values.sum / values.length) := by
    rw [hvalues, Extended.total_finite, hlength, Extended.finite_div_ofCount]
    exact (List.length_pos_iff.mpr hne).ne'
  have hbest : (ofHits settings element query first rest).best = some (.finite greatest) := by
    rw [← htop]
    rfl
  have hmean' : (ofHits settings element query first rest).mean =
      some (.finite (values.sum / values.length)) := by
    rw [← hmean]
    rfl
  have htrust : trust (ofHits settings element query first rest).grounded values =
      if (ofHits settings element query first rest).grounded then greatest
      else values.sum / values.length := by
    simp only [trust, hgreatest]
  have hunitTrust := inUnit_trust (ofHits settings element query first rest).grounded hunit
  exact {
    similarities := hvalues
    exampleCount := rfl
    grounded := atMost_best_iff settings.groundedSimilarity fun hit hmem =>
      (exists_value_of_mem hvalues hmem).imp fun _ h => h.2
    status := status_ofHits ..
    best := by rw [hbest, hgreatest]; rfl
    mean := by rw [hmean', if_neg hne]
    confidence := by
      rw [confidence_ofHits, htop, hmean, ← apply_ite Extended.finite, ← htrust,
        Extended.clampUnit_finite hunitTrust]
    inUnit := hunitTrust
    between := fun least greatest => trust_between _
    mean_le_best := by
      intro mean best hmeanEq hbestEq
      rw [hmean'] at hmeanEq
      rw [hbest] at hbestEq
      cases hmeanEq
      cases hbestEq
      exact Scalar.mean?_le (List.max?_eq_some_iff.mp hgreatest).2 (Scalar.mean?_of_ne_nil hne)
    topExample := by
      rw [if_neg (by simp)]
      exact ⟨_, foldl_better_mem first rest, by rw [hbest, htop], rfl⟩ }

/-- Whether two groundings say the same, but for the example that is shown. -/
structure Alike (grounding grounding' : Grounding Extended) : Prop where
  status : grounding.verdict.status = grounding'.verdict.status
  confidence : grounding.verdict.confidence = grounding'.verdict.confidence
  grounded : grounding.grounded = grounding'.grounded
  exampleCount : grounding.exampleCount = grounding'.exampleCount
  best : grounding.best = grounding'.best
  mean : grounding.mean = grounding'.mean

/-- Groundings that say nothing are alike. -/
theorem Neutral.alike {grounding grounding' : Grounding Extended} (h : grounding.Neutral)
    (h' : grounding'.Neutral) : Alike grounding grounding' where
  status := h.status.trans h'.status.symm
  confidence := h.confidence.trans h'.confidence.symm
  grounded := h.grounded.trans h'.grounded.symm
  exampleCount := h.exampleCount.trans h'.exampleCount.symm
  best := h.best.trans h'.best.symm
  mean := h.mean.trans h'.mean.symm

/-- Groundings that measure the same examples in different orders are alike. -/
theorem Measures.alike {hits hits' : List (Hit Extended)} {values values' : List Rat}
    {grounding grounding' : Grounding Extended} (h : grounding.Measures settings hits values)
    (h' : grounding'.Measures settings hits' values') (hperm : hits.Perm hits') :
    Alike grounding grounding' := by
  have hvalues : values.Perm values' := by
    rw [← List.map_perm_map_iff Extended.finite_injective, ← h.similarities, ← h'.similarities]
    exact hperm.map Hit.similarity
  have hmax : values.max? = values'.max? := by
    apply Option.ext
    intro greatest
    simp only [List.max?_eq_some_iff, hvalues.mem_iff]
  have hnil : values = [] ↔ values' = [] := by
    rw [← List.length_eq_zero_iff, ← List.length_eq_zero_iff, hvalues.length_eq]
  have hgrounded : grounding.grounded = grounding'.grounded := by
    rw [Bool.eq_iff_iff, h.grounded, h'.grounded]
    simp only [hperm.mem_iff]
  have htrust : trust grounding.grounded values = trust grounding'.grounded values' := by
    simp only [trust, hmax, hgrounded, hvalues.sum_eq, hvalues.length_eq]
  constructor
  · rw [h.status, h'.status, hgrounded]
  · rw [h.confidence, h'.confidence, htrust]
  · exact hgrounded
  · rw [h.exampleCount, h'.exampleCount, hperm.length_eq]
  · rw [h.best, h'.best, hmax]
  · simp only [h.mean, h'.mean, hnil, hvalues.sum_eq, hvalues.length_eq]

/-- What an answer comes to: if one of its similarities is no number between zero and one it says
nothing, and if all are it is measured by them. -/
structure Weighs (settings : Settings Extended) (hits : List (Hit Extended))
    (grounding : Grounding Extended) : Prop where
  unusable : (∃ hit ∈ hits, ¬hit.similarity.IsSimilarity) → grounding.Neutral
  usable : (∀ hit ∈ hits, hit.similarity.IsSimilarity) →
    ∃ values : List Rat, grounding.Measures settings hits values

/-- Similarities between zero and one are rational numbers. -/
theorem exists_values {hits : List (Hit Extended)}
    (h : ∀ hit ∈ hits, hit.similarity.IsSimilarity) : ∃ values : List Rat,
      hits.map Hit.similarity = values.map .finite ∧ ∀ value ∈ values, InUnit value := by
  induction hits with
  | nil => exact ⟨[], rfl, by simp⟩
  | cons hit rest ih =>
    obtain ⟨value, hvalue, hunit⟩ := h hit (by simp)
    obtain ⟨values, hvalues, hunits⟩ := ih fun other hmem => h other (by simp [hmem])
    exact ⟨value :: values, by simp [hvalue, hvalues], by simpa using ⟨hunit, hunits⟩⟩

/-- What is drawn from an answer is weighed by its similarities. -/
theorem weighs_classify (settings : Settings Extended) (hits : List (Hit Extended)) :
    (classify settings element query hits).Weighs settings hits := by
  cases hbad : hits.find? fun hit => !isSimilarity hit.similarity with
  | some bad =>
    have hneutral : (classify settings element query hits).Neutral := by
      simp only [classify, hbad]
      exact neutral_malformed ..
    refine ⟨fun _ => hneutral, ?_⟩
    intro hgood
    have hfound := List.find?_some hbad
    have hbadGood := (isSimilarity_iff _).mpr (hgood bad (List.mem_of_find?_eq_some hbad))
    simp [hbadGood] at hfound
  | none =>
    have hgood : ∀ hit ∈ hits, hit.similarity.IsSimilarity := by
      intro hit hmem
      rw [← isSimilarity_iff]
      simpa using List.find?_eq_none.mp hbad hit hmem
    refine ⟨?_, fun _ => ?_⟩
    · rintro ⟨hit, hmem, hnot⟩
      exact absurd (hgood hit hmem) hnot
    · obtain ⟨values, hvalues, hunit⟩ := exists_values hgood
      simp only [classify, hbad]
      cases hits with
      | nil =>
        obtain rfl : values = [] := by simpa using hvalues.symm
        exact ⟨[], measures_unsupported ..⟩
      | cons first rest => exact ⟨values, measures_ofHits element query hvalues hunit⟩

/-- For any settings and any answer, what is drawn from the answer is weighed by the similarities in
it, and says the same in whichever order the examples come. -/
theorem classify_weighs (settings : Settings Extended) (element : ElementRef) (query : String)
    (hits : List (Hit Extended)) :
    (classify settings element query hits).Weighs settings hits ∧
      ∀ hits', hits.Perm hits' →
        Alike (classify settings element query hits) (classify settings element query hits') := by
  have hweighs := weighs_classify element query settings hits
  refine ⟨hweighs, ?_⟩
  intro hits' hperm
  have hweighs' := weighs_classify element query settings hits'
  by_cases hgood : ∀ hit ∈ hits, hit.similarity.IsSimilarity
  · obtain ⟨values, hmeasures⟩ := hweighs.usable hgood
    obtain ⟨values', hmeasures'⟩ := hweighs'.usable fun hit hmem =>
      hgood hit (hperm.mem_iff.mpr hmem)
    exact hmeasures.alike hmeasures' hperm
  · have hbad : ∃ hit ∈ hits, ¬hit.similarity.IsSimilarity := by simpa using hgood
    have hbad' : ∃ hit ∈ hits', ¬hit.similarity.IsSimilarity := by
      simpa only [hperm.mem_iff] using hbad
    exact (hweighs.unusable hbad).alike (hweighs'.unusable hbad')

/-- Three examples, two of which are the most similar ones. -/
def tiedHits : List (Hit Extended) :=
  [⟨"np.load(a)", .finite (4 / 5)⟩, ⟨"np.save(a)", .finite (1 / 5)⟩,
    ⟨"np.loads(a)", .finite (4 / 5)⟩]

/-- An example that is as similar as can be, and one whose similarity is no number. -/
def spoiltHits : List (Hit Extended) :=
  [⟨"np.load(a)", .finite 1⟩, ⟨"np.save(a)", .notANumber⟩]

/-- Of two best examples the last is shown, so that another is in the other order, where all else
stays the same. An answer with what is no number says nothing, however good the rest of it is. -/
theorem classify_weighs_tiedHits :
    let element : ElementRef := ⟨0, .methodCall, "np.load", 1⟩
    let grounding := classify .standard element "load" tiedHits
    let backwards := classify .standard element "load" tiedHits.reverse
    tiedHits.Perm tiedHits.reverse ∧ grounding.Weighs .standard tiedHits ∧
      Alike grounding backwards ∧ grounding.verdict.confidence = .finite (4 / 5) ∧
      grounding.topExample = some "np.loads(a)" ∧ backwards.topExample = some "np.load(a)" ∧
      (classify .standard element "load" spoiltHits).Neutral := by
  intro element grounding backwards
  have hperm : tiedHits.Perm tiedHits.reverse := (List.reverse_perm _).symm
  obtain ⟨hweighs, halike⟩ := classify_weighs .standard element "load" tiedHits
  have hspoilt : ∃ hit ∈ spoiltHits, ¬hit.similarity.IsSimilarity :=
    ⟨⟨"np.save(a)", .notANumber⟩, by simp [spoiltHits], by simp [Extended.IsSimilarity]⟩
  exact ⟨hperm, hweighs, halike _ hperm, by decide +kernel, by decide +kernel, by decide +kernel,
    (classify_weighs .standard element "load" spoiltHits).1.unusable hspoilt⟩

end Grounding

end UsageAudit
