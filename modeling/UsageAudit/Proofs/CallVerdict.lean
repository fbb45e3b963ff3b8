import UsageAudit.Proofs.CallBinding

/-!
# What is said of the arguments of a call

A call can go wrong in three ways: parameters have two arguments, arguments have nowhere to go, or
parameters that need an argument have none. The verdict on a call speaks of the first of these that
there is, and names what is concerned. Only of a call with which nothing is wrong it compares types.
-/

namespace UsageAudit.Invocation

variable {call : Invocation}

section Verdicts

variable (call)

/-- Whether a verdict says which parameters have two arguments. -/
structure SaysTwice (verdict : Verdict Float) : Prop where
  status : verdict.status = .uncertain
  confidence : verdict.confidence = 0.3
  names : ∃ names, verdict = Binding.duplicateVerdict names ∧
    verdict.details = [("duplicate_arguments", .texts names)] ∧
    Picks names (call.keywords.map KeywordArg.name) fun name =>
      ∃ param, call.BindsTwice param ∧ param.name = name

/-- Whether a verdict says how many arguments by position and which keywords have nowhere to go. -/
structure SaysSurplus (verdict : Verdict Float) : Prop where
  status : verdict.status = .uncertain
  confidence : verdict.confidence = 0.3
  names : ∃ excess names,
    verdict = Binding.surplusVerdict call.params call.positional.length excess names ∧
    verdict.details =
      [("excess_positional", .count excess), ("unexpected_keywords", .texts names)] ∧
    excess = {index | call.Strays (.position index)}.ncard ∧
    Picks names (call.keywords.map KeywordArg.name) fun name => call.Strays (.keyword name)

/-- Whether a verdict says which parameters need an argument and have none. -/
structure SaysMissing (verdict : Verdict Float) : Prop where
  status : verdict.status = .uncertain
  confidence : verdict.confidence = 0.5
  names : ∃ names, verdict = Binding.missingVerdict names ∧
    verdict.details = [("missing_arguments", .texts names)] ∧
    Picks names (call.params.map Param.name) fun name =>
      ∃ param, call.Lacks param ∧ param.name = name

/-- Whether a verdict only compares the arguments with the types of the parameters that they are
bound to. -/
def SaysTypes (verdict : Verdict Float) : Prop :=
  ∃ binding : Binding, verdict = Binding.typeVerdict binding.bound.length binding.typeChecks ∧
    binding.bound.keys.Nodup ∧
    ∀ name kind param, (name, kind, param) ∈ binding.bound ↔
      name = param.name ∧ call.Binds param kind

end Verdicts

/-- What is said of parameters that have two arguments. -/
theorem saysTwice_duplicateVerdict {names : List String}
    (h : Picks names (call.keywords.map KeywordArg.name) fun name =>
      ∃ param, call.BindsTwice param ∧ param.name = name) :
    call.SaysTwice (Binding.duplicateVerdict names) :=
  ⟨rfl, rfl, names, rfl, rfl, h⟩

/-- The verdict on arguments that have nowhere to go, but for its message and its suggestions. -/
theorem surplusVerdict_eq (params : List Param) (given excess : Nat) (names : List String) :
    ∃ message suggestions,
      Binding.surplusVerdict params given excess names = (⟨.uncertain, 0.3, message,
        [("excess_positional", .count excess), ("unexpected_keywords", .texts names)],
        suggestions⟩ : Verdict Float) := by
  by_cases hempty : params.isEmpty = true
  · simp only [Binding.surplusVerdict, if_pos hempty]
    exact ⟨_, _, rfl⟩
  · simp only [Binding.surplusVerdict, if_neg hempty]
    exact ⟨_, _, rfl⟩

/-- What is said of arguments that have nowhere to go. -/
theorem saysSurplus_surplusVerdict {excess : Nat} {names : List String}
    (hexcess : excess = {index | call.Strays (.position index)}.ncard)
    (h : Picks names (call.keywords.map KeywordArg.name) fun name => call.Strays (.keyword name)) :
    call.SaysSurplus
      (Binding.surplusVerdict call.params call.positional.length excess names) := by
  obtain ⟨message, suggestions, hverdict⟩ :=
    surplusVerdict_eq call.params call.positional.length excess names
  exact ⟨by rw [hverdict], by rw [hverdict], excess, names, rfl, by rw [hverdict], hexcess, h⟩

/-- What is said of parameters that need an argument and have none. -/
theorem saysMissing_missingVerdict {names : List String}
    (h : Picks names (call.params.map Param.name) fun name =>
      ∃ param, call.Lacks param ∧ param.name = name) :
    call.SaysMissing (Binding.missingVerdict names) :=
  ⟨rfl, rfl, names, rfl, rfl, h⟩

/-- The details of a verdict on types name no argument. -/
theorem keys_typeVerdict (bound : Nat) (checks : List Binding.TypeCheck) :
    (Binding.typeVerdict bound checks : Verdict Float).details.keys =
        ["checked_arguments", "bound_arguments"] ∨
      (Binding.typeVerdict bound checks : Verdict Float).details.keys = ["type_mismatches"] := by
  by_cases hwrong : (checks.filter fun check => !check.accepted).isEmpty = true
  · simp only [Binding.typeVerdict, if_pos hwrong]
    exact .inl rfl
  · simp only [Binding.typeVerdict, if_neg hwrong]
    exact .inr rfl

section Exclusive

variable {verdict : Verdict Float}

/-- The one detail where parameters have two arguments. -/
theorem SaysTwice.keys (h : call.SaysTwice verdict) :
    verdict.details.keys = ["duplicate_arguments"] := by
  obtain ⟨names, -, hdetails, -⟩ := h.names
  rw [hdetails]
  rfl

/-- The details where arguments have nowhere to go. -/
theorem SaysSurplus.keys (h : call.SaysSurplus verdict) :
    verdict.details.keys = ["excess_positional", "unexpected_keywords"] := by
  obtain ⟨excess, names, -, hdetails, -⟩ := h.names
  rw [hdetails]
  rfl

/-- The one detail where arguments are missing. -/
theorem SaysMissing.keys (h : call.SaysMissing verdict) :
    verdict.details.keys = ["missing_arguments"] := by
  obtain ⟨names, -, hdetails, -⟩ := h.names
  rw [hdetails]
  rfl

/-- The details where types are compared. -/
theorem SaysTypes.keys (h : call.SaysTypes verdict) :
    verdict.details.keys = ["checked_arguments", "bound_arguments"] ∨
      verdict.details.keys = ["type_mismatches"] := by
  obtain ⟨binding, rfl, -⟩ := h
  exact keys_typeVerdict _ _

end Exclusive

/-- The verdict on the arguments of the call. -/
def verdict (call : Invocation) : Verdict Float :=
  if !call.binding.duplicates.isEmpty then Binding.duplicateVerdict call.binding.duplicates
  else if call.binding.excess ≠ 0 ∨ !call.binding.unexpected.isEmpty then
    Binding.surplusVerdict call.params call.positional.length call.binding.excess
      call.binding.unexpected
  else if !(call.binding.missing call.params).isEmpty then
    Binding.missingVerdict ((call.binding.missing call.params).map Param.name)
  else Binding.typeVerdict call.binding.bound.length call.binding.typeChecks

/-- What is wrong with a call, if anything is, and that the verdict says so. -/
theorem verdict_cases (hparams : (call.params.map Param.name).Nodup)
    (hkeywords : (call.keywords.map KeywordArg.name).Nodup) :
    ((∃ param, call.BindsTwice param) ∧ call.SaysTwice call.verdict) ∨
    ((¬∃ param, call.BindsTwice param) ∧
      ((∃ argument, call.Strays argument) ∧ call.SaysSurplus call.verdict ∨
      (¬∃ argument, call.Strays argument) ∧
        ((∃ param, call.Lacks param) ∧ call.SaysMissing call.verdict ∨
        (¬∃ param, call.Lacks param) ∧ call.SaysTypes call.verdict))) := by
  have htwice := picks_duplicates hparams hkeywords
  have hmissing := picks_missing hparams hkeywords
  have hstrays := not_exists_strays_iff hparams hkeywords
  by_cases hduplicates : call.binding.duplicates = []
  · have honce : ∀ param, ¬call.BindsTwice param := by simpa [htwice.eq_nil_iff] using hduplicates
    refine .inr ⟨not_exists.mpr honce, ?_⟩
    by_cases hsurplus : call.binding.excess = 0 ∧ call.binding.unexpected = []
    · refine .inr ⟨hstrays.mpr hsurplus, ?_⟩
      by_cases hcomplete : call.binding.missing call.params = []
      · refine .inr ⟨?_, call.binding, ?_, Binding.nodup_ofCall .., fun name kind param =>
          mem_bound_iff_binds hparams hkeywords honce⟩
        · have hnone := hmissing.eq_nil_iff.mp (List.map_eq_nil_iff.mpr hcomplete)
          rintro ⟨param, hlacks⟩
          exact hnone param.name ⟨param, hlacks, rfl⟩
        · simp [verdict, hduplicates, hsurplus, hcomplete]
      · have hsays := saysMissing_missingVerdict hmissing
        obtain ⟨name, param, hlacks, -⟩ :=
          hmissing.exists_of_ne_nil (mt List.map_eq_nil_iff.mp hcomplete)
        exact .inl ⟨⟨param, hlacks⟩,
          by simpa [verdict, hduplicates, hsurplus, hcomplete] using hsays⟩
    · have hsays := saysSurplus_surplusVerdict (excess_eq hparams hkeywords)
        (picks_unexpected hparams hkeywords)
      refine .inl ⟨not_not.mp fun hnone => hsurplus (hstrays.mp hnone), ?_⟩
      have hwrong : ¬call.binding.excess = 0 ∨ ¬call.binding.unexpected = [] :=
        not_and_or.mp hsurplus
      simpa [verdict, hduplicates, if_pos hwrong] using hsays
  · have hsays := saysTwice_duplicateVerdict htwice
    obtain ⟨name, param, hparam, -⟩ := htwice.exists_of_ne_nil hduplicates
    exact .inl ⟨⟨param, hparam⟩, by simpa [verdict, hduplicates] using hsays⟩

/-- The verdict on the arguments of a call decides how the call is bound. It says that parameters
have two arguments if and only if some have, and names them. Otherwise it says that arguments have
nowhere to go if and only if some do, and counts or names them. Otherwise it says that arguments are
missing if and only if some are, and names the parameters. Otherwise it compares the arguments with
the parameters that they are bound to. -/
theorem checkArguments_decides (declared : List Param) (positional : List ArgKind)
    (keywords : List KeywordArg) (hparams : ((Binding.expected declared).map Param.name).Nodup)
    (hkeywords : (keywords.map KeywordArg.name).Nodup) :
    let call : Invocation := ⟨Binding.expected declared, positional, keywords⟩
    let verdict : Verdict Float := checkArguments declared positional keywords
    (call.SaysTwice verdict ↔ ∃ param, call.BindsTwice param) ∧
    ((¬∃ param, call.BindsTwice param) →
      (call.SaysSurplus verdict ↔ ∃ argument, call.Strays argument) ∧
      ((¬∃ argument, call.Strays argument) →
        (call.SaysMissing verdict ↔ ∃ param, call.Lacks param) ∧
        ((¬∃ param, call.Lacks param) → call.SaysTypes verdict))) := by
  intro call verdict
  have hcases := @verdict_cases call hparams hkeywords
  rw [show call.verdict = verdict from rfl] at hcases
  rcases hcases with ⟨htwice, hsays⟩ |
    ⟨honce, ⟨hstrays, hsays⟩ | ⟨hsettled, ⟨hlacks, hsays⟩ | ⟨hcomplete, hsays⟩⟩⟩
  · exact ⟨iff_of_true hsays htwice, fun honce => absurd htwice honce⟩
  · have hkeys := hsays.keys
    have hnotTwice : ¬call.SaysTwice verdict := fun hother => by simp [hother.keys] at hkeys
    exact ⟨iff_of_false hnotTwice honce,
      fun _ => ⟨iff_of_true hsays hstrays, fun hsettled => absurd hstrays hsettled⟩⟩
  · have hkeys := hsays.keys
    have hnotTwice : ¬call.SaysTwice verdict := fun hother => by simp [hother.keys] at hkeys
    have hnotSurplus : ¬call.SaysSurplus verdict := fun hother => by simp [hother.keys] at hkeys
    exact ⟨iff_of_false hnotTwice honce, fun _ => ⟨iff_of_false hnotSurplus hsettled,
      fun _ => ⟨iff_of_true hsays hlacks, fun hcomplete => absurd hlacks hcomplete⟩⟩⟩
  · have hkeys := hsays.keys
    have hnotTwice : ¬call.SaysTwice verdict := fun hother => by simp [hother.keys] at hkeys
    have hnotSurplus : ¬call.SaysSurplus verdict := fun hother => by simp [hother.keys] at hkeys
    have hnotMissing : ¬call.SaysMissing verdict := fun hother => by simp [hother.keys] at hkeys
    exact ⟨iff_of_false hnotTwice honce, fun _ => ⟨iff_of_false hnotSurplus hsettled,
      fun _ => ⟨iff_of_false hnotMissing hcomplete, fun _ => hsays⟩⟩⟩

/-- The parameters of a method that draws a point. -/
def drawParams : List Param := [
  ⟨"self", none, false, .positional⟩, ⟨"x", some "int", false, .positional⟩,
  ⟨"y", some "int", false, .positional⟩, ⟨"color", none, false, .keywordOnly⟩,
  ⟨"options", none, false, .varKeyword⟩]

/-- A call of that method without a color. -/
def drawCall : Invocation :=
  ⟨Binding.expected drawParams, [.int], [⟨"y", .int⟩, ⟨"width", .float⟩]⟩

/-- Nothing is wrong with the call but that a parameter has no argument. -/
theorem checkArguments_decides_drawCall :
    (¬∃ param, drawCall.BindsTwice param) ∧ (¬∃ argument, drawCall.Strays argument) ∧
      (∃ param, drawCall.Lacks param) ∧
      drawCall.SaysMissing (checkArguments drawParams drawCall.positional drawCall.keywords) := by
  have hkeys : (checkArguments drawParams drawCall.positional drawCall.keywords :
      Verdict Float).details.keys = ["missing_arguments"] := by decide +kernel
  obtain ⟨htwice, hrest⟩ := checkArguments_decides drawParams drawCall.positional drawCall.keywords
    (by decide) (by decide)
  have honce : ¬∃ param, drawCall.BindsTwice param := fun h => by
    simpa [hkeys] using (htwice.mpr h).keys
  obtain ⟨hsurplus, hrest⟩ := hrest honce
  have hsettled : ¬∃ argument, drawCall.Strays argument := fun h => by
    simpa [hkeys] using (hsurplus.mpr h).keys
  obtain ⟨hmissing, htypes⟩ := hrest hsettled
  have hlacks : ∃ param, drawCall.Lacks param := by
    by_contra hcomplete
    simpa [hkeys] using (htypes hcomplete).keys
  exact ⟨honce, hsettled, hlacks, hmissing.mpr hlacks⟩

end UsageAudit.Invocation
